import Mathlib.Tactic
import PodCache.Text.Utf8

/-!
# Reading back UTF-8

The octets of a character are read back as that character, whatever follows (`readChar_encodeChar`),
and no other octets are read as it (`eq_append_of_readChar`).  The octets of a character outside
ASCII are all outside ASCII (`le_of_mem_encodeChar`), so that none of them is taken for a delimiter.
Whole texts are read back from their octets (`text?_ofText`).
-/

namespace PodCache.Text.Utf8

theorem toNat_ofNat_of_lt {n : Nat} (h : n < 256) : (UInt8.ofNat n).toNat = n := by
  rw [UInt8.toNat_ofNat']
  exact Nat.mod_eq_of_lt h

theorem ofNat_eq_of_toNat (b : UInt8) {n : Nat} (h : n = b.toNat) : UInt8.ofNat n = b := by
  rw [h, UInt8.ofNat_toNat]

theorem toNat_charOfNat {n : Nat} (h : n.isValidChar) : (Char.ofNat n).toNat = n := by
  rw [Char.ofNat, dif_pos h]
  rfl

theorem continuation?_ofNat {low high n : Nat} (hlow : low ≤ n) (hhigh : n ≤ high)
    (hn : n < 256) (t : Bytes) :
    continuation? low high (UInt8.ofNat n :: t) = some (n % 64, t) := by
  rw [continuation?, toNat_ofNat_of_lt hn, if_pos ⟨hlow, hhigh⟩]

theorem eq_cons_of_continuation? {low high a : Nat} {bytes rest : Bytes}
    (h : continuation? low high bytes = some (a, rest)) :
    ∃ b, bytes = b :: rest ∧ low ≤ b.toNat ∧ b.toNat ≤ high ∧ a = b.toNat % 64 := by
  unfold continuation? at h
  split at h
  · cases h
  · rename_i b tail
    split_ifs at h with hb
    obtain ⟨rfl, rfl⟩ := Prod.mk.inj (Option.some.inj h)
    exact ⟨b, rfl, hb.1, hb.2, rfl⟩

/-- A code point is no surrogate and not above the last code point. -/
theorem toNat_cases (c : Char) : c.toNat < 0xD800 ∨ 0xDFFF < c.toNat ∧ c.toNat < 0x110000 :=
  c.valid

theorem readChar_encodeChar (c : Char) (t : Bytes) :
    ∃ lead tail, encodeChar c = lead :: tail ∧ readChar lead (tail ++ t) = (some c, t) := by
  have hc := toNat_cases c
  have hback : Char.ofNat c.toNat = c := Char.ofNat_toNat c
  generalize hn : c.toNat = n at hc hback
  unfold encodeChar
  rw [hn]
  dsimp only
  split_ifs with h₁ h₂ h₃
  · refine ⟨_, [], rfl, ?_⟩
    rw [readChar, toNat_ofNat_of_lt (by omega)]
    simp [h₁, hback]
  · refine ⟨_, _, rfl, ?_⟩
    rw [readChar, toNat_ofNat_of_lt (by omega)]
    dsimp only
    rw [if_neg (by omega), if_pos (by omega), List.cons_append, List.nil_append,
      continuation?_ofNat (by omega) (by omega) (by omega)]
    dsimp only
    rw [show (0xC0 + n / 64 - 0xC0) * 64 + (0x80 + n % 64) % 64 = n by omega, hback]
  · refine ⟨_, _, rfl, ?_⟩
    rw [readChar, toNat_ofNat_of_lt (by omega)]
    dsimp only
    rw [if_neg (by omega), if_neg (by omega), if_pos (by omega), List.cons_append,
      continuation?_ofNat (by split_ifs <;> omega) (by split_ifs <;> omega) (by omega)]
    dsimp only
    rw [List.cons_append, List.nil_append,
      continuation?_ofNat (by omega) (by omega) (by omega)]
    dsimp only
    rw [show (0xE0 + n / 4096 - 0xE0) * 4096 + (0x80 + n / 64 % 64) % 64 * 64 +
      (0x80 + n % 64) % 64 = n by omega, hback]
  · refine ⟨_, _, rfl, ?_⟩
    rw [readChar, toNat_ofNat_of_lt (by omega)]
    dsimp only
    rw [if_neg (by omega), if_neg (by omega), if_neg (by omega), if_pos (by omega),
      List.cons_append,
      continuation?_ofNat (by split_ifs <;> omega) (by split_ifs <;> omega) (by omega)]
    dsimp only
    rw [List.cons_append, continuation?_ofNat (by omega) (by omega) (by omega)]
    dsimp only
    rw [List.cons_append, List.nil_append,
      continuation?_ofNat (by omega) (by omega) (by omega)]
    dsimp only
    rw [show (0xF0 + n / 262144 - 0xF0) * 262144 + (0x80 + n / 4096 % 64) % 64 * 4096 +
      (0x80 + n / 64 % 64) % 64 * 64 + (0x80 + n % 64) % 64 = n by omega, hback]

theorem encodeChar_two {a b : UInt8} (ha : 0xC2 ≤ a.toNat ∧ a.toNat ≤ 0xDF)
    (hb : 0x80 ≤ b.toNat ∧ b.toNat ≤ 0xBF) :
    encodeChar (Char.ofNat ((a.toNat - 0xC0) * 64 + b.toNat % 64)) = [a, b] := by
  rw [encodeChar, toNat_charOfNat (by omega), if_neg (by omega), if_pos (by omega),
    ofNat_eq_of_toNat a (by omega), ofNat_eq_of_toNat b (by omega)]

/-- The bounds of the second octet exclude overlong forms and surrogates. -/
theorem encodeChar_three {a b c : UInt8} (ha : 0xE0 ≤ a.toNat ∧ a.toNat ≤ 0xEF)
    (hb : 0x80 ≤ b.toNat ∧ b.toNat ≤ 0xBF) (hlow : a.toNat = 0xE0 → 0xA0 ≤ b.toNat)
    (hhigh : a.toNat = 0xED → b.toNat ≤ 0x9F) (hc : 0x80 ≤ c.toNat ∧ c.toNat ≤ 0xBF) :
    encodeChar (Char.ofNat ((a.toNat - 0xE0) * 4096 + b.toNat % 64 * 64 + c.toNat % 64)) =
      [a, b, c] := by
  rw [encodeChar, toNat_charOfNat (by unfold Nat.isValidChar; omega), if_neg (by omega),
    if_neg (by omega), if_pos (by omega), ofNat_eq_of_toNat a (by omega),
    ofNat_eq_of_toNat b (by omega), ofNat_eq_of_toNat c (by omega)]

theorem encodeChar_four {a b c d : UInt8} (ha : 0xF0 ≤ a.toNat ∧ a.toNat ≤ 0xF4)
    (hb : 0x80 ≤ b.toNat ∧ b.toNat ≤ 0xBF) (hlow : a.toNat = 0xF0 → 0x90 ≤ b.toNat)
    (hhigh : a.toNat = 0xF4 → b.toNat ≤ 0x8F) (hc : 0x80 ≤ c.toNat ∧ c.toNat ≤ 0xBF)
    (hd : 0x80 ≤ d.toNat ∧ d.toNat ≤ 0xBF) :
    encodeChar (Char.ofNat ((a.toNat - 0xF0) * 262144 + b.toNat % 64 * 4096 +
      c.toNat % 64 * 64 + d.toNat % 64)) = [a, b, c, d] := by
  rw [encodeChar, toNat_charOfNat (by unfold Nat.isValidChar; omega), if_neg (by omega),
    if_neg (by omega), if_neg (by omega), ofNat_eq_of_toNat a (by omega),
    ofNat_eq_of_toNat b (by omega), ofNat_eq_of_toNat c (by omega),
    ofNat_eq_of_toNat d (by omega)]

/-- Only the shortest octets of a character are read as that character. -/
theorem eq_append_of_readChar {lead : UInt8} {rest rest' : Bytes} {c : Char}
    (h : readChar lead rest = (some c, rest')) : lead :: rest = encodeChar c ++ rest' := by
  unfold readChar at h
  dsimp only at h
  by_cases h₁ : lead.toNat < 0x80
  · rw [if_pos h₁] at h
    obtain ⟨hc, rfl⟩ := Prod.mk.inj h
    obtain rfl := Option.some.inj hc
    rw [encodeChar, toNat_charOfNat (by omega), if_pos h₁, ofNat_eq_of_toNat lead rfl]
    rfl
  rw [if_neg h₁] at h
  by_cases h₂ : 0xC2 ≤ lead.toNat ∧ lead.toNat ≤ 0xDF
  · rw [if_pos h₂] at h
    split at h
    · cases h
    · rename_i ha
      obtain ⟨hc, rfl⟩ := Prod.mk.inj h
      obtain rfl := Option.some.inj hc
      obtain ⟨x, rfl, hlow, hhigh, rfl⟩ := eq_cons_of_continuation? ha
      rw [encodeChar_two h₂ ⟨hlow, hhigh⟩]
      rfl
  rw [if_neg h₂] at h
  by_cases h₃ : 0xE0 ≤ lead.toNat ∧ lead.toNat ≤ 0xEF
  · rw [if_pos h₃] at h
    split at h
    · cases h
    · rename_i ha
      split at h
      · cases h
      · rename_i hb
        obtain ⟨hc, rfl⟩ := Prod.mk.inj h
        obtain rfl := Option.some.inj hc
        obtain ⟨x, rfl, hlow, hhigh, rfl⟩ := eq_cons_of_continuation? ha
        obtain ⟨y, rfl, hlow', hhigh', rfl⟩ := eq_cons_of_continuation? hb
        rw [encodeChar_three h₃ ⟨by split_ifs at hlow <;> omega, by split_ifs at hhigh <;> omega⟩
          (fun he => by rwa [if_pos he] at hlow) (fun he => by rwa [if_pos he] at hhigh)
          ⟨hlow', hhigh'⟩]
        rfl
  rw [if_neg h₃] at h
  by_cases h₄ : 0xF0 ≤ lead.toNat ∧ lead.toNat ≤ 0xF4
  · rw [if_pos h₄] at h
    split at h
    · cases h
    · rename_i ha
      split at h
      · cases h
      · rename_i hb
        split at h
        · cases h
        · rename_i hd
          obtain ⟨hc, rfl⟩ := Prod.mk.inj h
          obtain rfl := Option.some.inj hc
          obtain ⟨x, rfl, hlow, hhigh, rfl⟩ := eq_cons_of_continuation? ha
          obtain ⟨y, rfl, hlow', hhigh', rfl⟩ := eq_cons_of_continuation? hb
          obtain ⟨z, rfl, hlow'', hhigh'', rfl⟩ := eq_cons_of_continuation? hd
          rw [encodeChar_four h₄
            ⟨by split_ifs at hlow <;> omega, by split_ifs at hhigh <;> omega⟩
            (fun he => by rwa [if_pos he] at hlow) (fun he => by rwa [if_pos he] at hhigh)
            ⟨hlow', hhigh'⟩ ⟨hlow'', hhigh''⟩]
          rfl
  · rw [if_neg h₄] at h
    cases h

theorem le_of_mem_encodeChar {c : Char} (h : 0x80 ≤ c.toNat) {b : UInt8}
    (hb : b ∈ encodeChar c) : 0x80 ≤ b.toNat := by
  have hc := toNat_cases c
  unfold encodeChar at hb
  dsimp only at hb
  split_ifs at hb with h₁ h₂ h₃
  · omega
  all_goals
    simp only [List.mem_cons, List.not_mem_nil, or_false] at hb
    rcases hb with rfl | rfl | rfl | rfl <;> rw [toNat_ofNat_of_lt (by omega)] <;> omega

theorem decodeChars?_encodeChars (cs : List Char) : decodeChars? (encodeChars cs) = some cs := by
  induction cs with
  | nil => rw [encodeChars, List.flatMap_nil, decodeChars?]
  | cons c cs ih =>
    obtain ⟨lead, tail, hc, hr⟩ := readChar_encodeChar c (encodeChars cs)
    rw [encodeChars, List.flatMap_cons, hc, List.cons_append, ← encodeChars, decodeChars?]
    split
    · rename_i heq
      rw [hr] at heq
      cases heq
    · rename_i c' rest heq
      rw [hr] at heq
      obtain ⟨hc', rfl⟩ := Prod.mk.inj heq
      obtain rfl := Option.some.inj hc'
      rw [ih]
      rfl

end PodCache.Text.Utf8

namespace PodCache.Bytes

theorem text?_ofText (s : String) : text? (ofText s) = some s := by
  rw [text?, Text.Utf8.decode?, ofText, Text.Utf8.encode, Text.Utf8.decodeChars?_encodeChars,
    Option.map_some, String.ofList_toList]

end PodCache.Bytes
