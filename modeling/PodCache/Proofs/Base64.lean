import PodCache.Base64
import PodCache.Proofs.Text.Utf8

/-!
# Reading back base 64

Decoding gives back every sequence of octets from its base 64 text, and from no other text
(`decode?_eq_some_iff`).  Only the empty sequence has an empty text, written (`encode_eq_empty_iff`)
or read (`decode?_ne_nil`).
-/

namespace PodCache.Base64

open Text.Utf8 (ofNat_eq_of_toNat toNat_ofNat_of_lt)

theorem value?_digit : ∀ n < 64, value? (digit n) = some n := by decide

theorem digit_ne_pad : ∀ n < 64, digit n ≠ '=' := by decide

/-- One octet fills two digits. -/
theorem decodeLast?_one (a : UInt8) :
    decodeLast? (digit (a.toNat / 4)) (digit (a.toNat % 4 * 16)) '=' '=' = some [a] := by
  have ha := a.toNat_lt
  rw [decodeLast?, value?_digit _ (by omega), value?_digit _ (by omega)]
  simp only [Option.bind_eq_bind, Option.bind_some, and_self, if_true]
  rw [if_pos (by omega), ofNat_eq_of_toNat a (by omega)]

/-- Two octets fill three digits. -/
theorem decodeLast?_two (a b : UInt8) :
    decodeLast? (digit (a.toNat / 4)) (digit (a.toNat % 4 * 16 + b.toNat / 16))
      (digit (b.toNat % 16 * 4)) '=' = some [a, b] := by
  have ha := a.toNat_lt
  have hb := b.toNat_lt
  rw [decodeLast?, value?_digit _ (by omega), value?_digit _ (by omega)]
  simp only [Option.bind_eq_bind, Option.bind_some, and_true, if_true]
  rw [if_neg (digit_ne_pad _ (by omega)), value?_digit _ (by omega), Option.bind_some,
    if_pos (by omega), ofNat_eq_of_toNat a (by omega), ofNat_eq_of_toNat b (by omega)]

/-- Three octets fill four digits. -/
theorem decodeGroup?_three (a b c : UInt8) :
    decodeGroup? (digit (a.toNat / 4)) (digit (a.toNat % 4 * 16 + b.toNat / 16))
      (digit (b.toNat % 16 * 4 + c.toNat / 64)) (digit (c.toNat % 64)) = some [a, b, c] := by
  have ha := a.toNat_lt
  have hb := b.toNat_lt
  have hc := c.toNat_lt
  rw [decodeGroup?, value?_digit _ (by omega), value?_digit _ (by omega),
    value?_digit _ (by omega), value?_digit _ (by omega)]
  simp only [Option.bind_eq_bind, Option.bind_some]
  rw [ofNat_eq_of_toNat a (by omega), ofNat_eq_of_toNat b (by omega),
    ofNat_eq_of_toNat c (by omega)]
  rfl

theorem decodeChars?_encodeChars (bytes : Bytes) :
    decodeChars? (encodeChars bytes) = some bytes := by
  fun_induction encodeChars bytes with
  | case1 => rfl
  | case2 a =>
    rw [decodeChars?, if_pos ⟨rfl, rfl⟩, decodeLast?_one]
  | case3 a b =>
    rw [decodeChars?, if_pos ⟨rfl, rfl⟩, decodeLast?_two]
  | case4 a b c rest ih =>
    have hc := c.toNat_lt
    rw [decodeChars?, if_neg fun h => digit_ne_pad _ (by omega) h.2, decodeGroup?_three, ih]
    rfl

theorem decode?_encode (bytes : Bytes) : decode? (encode bytes) = some bytes := by
  rw [decode?, encode, String.toList_ofList, decodeChars?_encodeChars]

/-! ## Nothing else is read -/

theorem eq_digit_of_value? {c : Char} {n : Nat} (h : value? c = some n) :
    c = digit n ∧ n < 64 := by
  have hback : Char.ofNat c.toNat = c := Char.ofNat_toNat c
  unfold value? at h
  dsimp only at h
  split_ifs at h with h₁ h₂ h₃ h₄ h₅
  · obtain rfl := Option.some.inj h
    refine ⟨?_, by omega⟩
    rw [digit, if_pos (by omega), show 65 + (c.toNat - 65) = c.toNat by omega, hback]
  · obtain rfl := Option.some.inj h
    refine ⟨?_, by omega⟩
    rw [digit, if_neg (by omega), if_pos (by omega),
      show 71 + (c.toNat - 71) = c.toNat by omega, hback]
  · obtain rfl := Option.some.inj h
    refine ⟨?_, by omega⟩
    rw [digit, if_neg (by omega), if_neg (by omega), if_pos (by omega),
      show c.toNat + 4 - 4 = c.toNat by omega, hback]
  · obtain rfl := Option.some.inj h
    exact ⟨h₄, by omega⟩
  · obtain rfl := Option.some.inj h
    exact ⟨h₅, by omega⟩

theorem eq_encodeChars_of_decodeLast? {a b c d : Char} {bytes : Bytes}
    (h : decodeLast? a b c d = some bytes) : [a, b, c, d] = encodeChars bytes := by
  simp only [decodeLast?, Option.bind_eq_bind, Option.bind_eq_some_iff] at h
  obtain ⟨x, hx, y, hy, h⟩ := h
  obtain ⟨ha, hx⟩ := eq_digit_of_value? hx
  obtain ⟨hb, hy⟩ := eq_digit_of_value? hy
  split_ifs at h with hcd hbits hd
  · obtain ⟨hc, hd⟩ := hcd
    obtain rfl := Option.some.inj h
    rw [encodeChars, toNat_ofNat_of_lt (by omega), show (x * 4 + y / 16) / 4 = x by omega,
      show (x * 4 + y / 16) % 4 * 16 = y by omega, ha, hb, hc, hd]
  · obtain ⟨z, hz, h⟩ := Option.bind_eq_some_iff.1 h
    obtain ⟨hc, hz⟩ := eq_digit_of_value? hz
    split_ifs at h with hbits
    obtain rfl := Option.some.inj h
    rw [encodeChars, toNat_ofNat_of_lt (by omega), toNat_ofNat_of_lt (by omega),
      show (x * 4 + y / 16) / 4 = x by omega,
      show (x * 4 + y / 16) % 4 * 16 + (y % 16 * 16 + z / 4) / 16 = y by omega,
      show (y % 16 * 16 + z / 4) % 16 * 4 = z by omega, ha, hb, hc, hd]

theorem eq_encodeChars_of_decodeGroup? {a b c d : Char} {group : Bytes}
    (h : decodeGroup? a b c d = some group) (bytes : Bytes) :
    a :: b :: c :: d :: encodeChars bytes = encodeChars (group ++ bytes) := by
  simp only [decodeGroup?, Option.bind_eq_bind, Option.bind_eq_some_iff] at h
  obtain ⟨x, hx, y, hy, z, hz, w, hw, h⟩ := h
  obtain ⟨ha, hx⟩ := eq_digit_of_value? hx
  obtain ⟨hb, hy⟩ := eq_digit_of_value? hy
  obtain ⟨hc, hz⟩ := eq_digit_of_value? hz
  obtain ⟨hd, hw⟩ := eq_digit_of_value? hw
  obtain rfl := Option.some.inj h
  rw [List.cons_append, List.cons_append, List.cons_append, List.nil_append, encodeChars,
    toNat_ofNat_of_lt (by omega), toNat_ofNat_of_lt (by omega), toNat_ofNat_of_lt (by omega),
    show (x * 4 + y / 16) / 4 = x by omega,
    show (x * 4 + y / 16) % 4 * 16 + (y % 16 * 16 + z / 4) / 16 = y by omega,
    show (y % 16 * 16 + z / 4) % 16 * 4 + (z % 4 * 64 + w) / 64 = z by omega,
    show (z % 4 * 64 + w) % 64 = w by omega, ha, hb, hc, hd]

theorem eq_encodeChars_of_decodeChars? {cs : List Char} {bytes : Bytes}
    (h : decodeChars? cs = some bytes) : cs = encodeChars bytes := by
  fun_induction decodeChars? cs generalizing bytes with
  | case1 =>
    obtain rfl := Option.some.inj h
    rfl
  | case2 a b c d rest hlast =>
    obtain rfl := List.isEmpty_iff.1 hlast.1
    exact eq_encodeChars_of_decodeLast? h
  | case3 a b c d rest hlast ih =>
    obtain ⟨group, hg, h⟩ := Option.bind_eq_some_iff.1 h
    obtain ⟨bytes', hb, h⟩ := Option.bind_eq_some_iff.1 h
    obtain rfl := Option.some.inj h
    rw [ih hb]
    exact eq_encodeChars_of_decodeGroup? hg bytes'
  | case4 => cases h

/-- Exactly the text of a sequence of octets is read as that sequence. -/
theorem decode?_eq_some_iff {text : String} {bytes : Bytes} :
    decode? text = some bytes ↔ text = encode bytes := by
  constructor
  · intro h
    rw [encode, ← eq_encodeChars_of_decodeChars? h, String.ofList_toList]
  · rintro rfl
    exact decode?_encode bytes

/-! ## Empty texts -/

theorem encode_eq_empty_iff (bytes : Bytes) : encode bytes = "" ↔ bytes = [] := by
  constructor
  · intro h
    have hd := decode?_encode bytes
    rw [h] at hd
    exact (Option.some.inj hd).symm
  · rintro rfl
    rfl

theorem decodeLast?_ne_nil {a b c d : Char} : decodeLast? a b c d ≠ some [] := by
  unfold decodeLast?
  intro h
  obtain ⟨x, -, h⟩ := Option.bind_eq_some_iff.1 h
  obtain ⟨y, -, h⟩ := Option.bind_eq_some_iff.1 h
  split_ifs at h
  · cases h
  · obtain ⟨z, -, h⟩ := Option.bind_eq_some_iff.1 h
    split_ifs at h
    cases h

theorem decodeGroup?_ne_nil {a b c d : Char} : decodeGroup? a b c d ≠ some [] := by
  unfold decodeGroup?
  intro h
  obtain ⟨x, -, h⟩ := Option.bind_eq_some_iff.1 h
  obtain ⟨y, -, h⟩ := Option.bind_eq_some_iff.1 h
  obtain ⟨z, -, h⟩ := Option.bind_eq_some_iff.1 h
  obtain ⟨w, -, h⟩ := Option.bind_eq_some_iff.1 h
  cases h

/-- Only the empty text decodes to no octets. -/
theorem decode?_ne_nil {text : String} (h : text ≠ "") : decode? text ≠ some [] := by
  intro hd
  have hne : text.toList ≠ [] := fun hl => h (String.toList_eq_nil_iff.1 hl)
  unfold decode? decodeChars? at hd
  split at hd
  · exact hne ‹_›
  · split_ifs at hd
    · exact decodeLast?_ne_nil hd
    · obtain ⟨group, hg, hd⟩ := Option.bind_eq_some_iff.1 hd
      obtain ⟨bytes, -, hd⟩ := Option.bind_eq_some_iff.1 hd
      obtain ⟨rfl, -⟩ := List.append_eq_nil_iff.1 (Option.some.inj hd)
      exact decodeGroup?_ne_nil hg
  · cases hd

end PodCache.Base64
