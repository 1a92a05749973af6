import Mathlib.Tactic
import PodCache.Proofs.Text.Utf8
import PodCache.Url.Percent

/-!
# What percent encoding leaves

Encoding leaves nothing that it would encode again (`Proper.encode`).  A text whose percent signs
have been encoded first is what the encoded text stands for (`decode_encode_escape`).
-/

namespace PodCache.Url.Percent

open Text

/-! ## Octets -/

/-- A set without the characters that octets are written with. -/
structure Proper (set : Char → Bool) : Prop where
  percent : set '%' = false
  digit : ∀ n < 16, set (upperHexDigit n) = false

theorem proper_controls : Proper controls := ⟨by decide, by decide⟩

theorem proper_fragmentSet : Proper fragmentSet := ⟨by decide, by decide⟩

theorem proper_pathSet : Proper pathSet := ⟨by decide, by decide⟩

theorem proper_userinfoSet : Proper userinfoSet := ⟨by decide, by decide⟩

theorem proper_querySet (special : Bool) : Proper (querySet special) := by
  cases special <;> exact ⟨by decide, by decide⟩

theorem hexValue?_upperHexDigit : ∀ n < 16, Bytes.hexValue? (upperHexDigit n) = some n := by decide

variable {set : Char → Bool} {c : Char} {cs : List Char}

theorem Proper.octet (h : Proper set) (b : UInt8) (hc : c ∈ octet b) : set c = false := by
  have hb := b.toNat_lt
  simp only [Percent.octet, List.mem_cons, List.not_mem_nil, or_false] at hc
  rcases hc with rfl | rfl | rfl
  · exact h.percent
  · exact h.digit _ (by omega)
  · exact h.digit _ (by omega)

theorem decode_octet (b : UInt8) (rest : List Char) :
    decode (octet b ++ rest) = b :: decode rest := by
  have hb := b.toNat_lt
  change decode ('%' :: upperHexDigit (b.toNat / 16) :: upperHexDigit (b.toNat % 16) :: rest) = _
  rw [decode, hexValue?_upperHexDigit _ (by omega), hexValue?_upperHexDigit _ (by omega)]
  dsimp only
  rw [Utf8.ofNat_eq_of_toNat b (by omega)]

theorem decode_octets (bytes : Bytes) (rest : List Char) :
    decode (bytes.flatMap octet ++ rest) = bytes ++ decode rest := by
  induction bytes with
  | nil => rfl
  | cons b bytes ih => rw [List.flatMap_cons, List.append_assoc, decode_octet, ih, List.cons_append]

theorem decode_cons (h : c ≠ '%') (rest : List Char) :
    decode (c :: rest) = Utf8.encodeChar c ++ decode rest := by
  rw [decode]
  rintro a b rest rfl
  exact absurd rfl h

/-- A text without percent signs stands for itself. -/
theorem decode_of_not_mem (h : '%' ∉ cs) : decode cs = Utf8.encodeChars cs := by
  induction cs with
  | nil => rfl
  | cons c cs ih =>
    rw [List.mem_cons, not_or] at h
    rw [decode_cons (Ne.symm h.1), ih h.2]
    rfl

/-! ## Encoding -/

theorem encode_append (set : Char → Bool) (cs ds : List Char) :
    encode set (cs ++ ds) = encode set cs ++ encode set ds := List.flatMap_append

theorem encode_of_forall (h : ∀ c ∈ cs, set c = false) : encode set cs = cs := by
  induction cs with
  | nil => rfl
  | cons c cs ih =>
    obtain ⟨hc, hcs⟩ := List.forall_mem_cons.1 h
    rw [encode, List.flatMap_cons, ← encode, ih hcs, encodeChar, hc]
    rfl

theorem Proper.encode (h : Proper set) (hc : c ∈ encode set cs) : set c = false := by
  obtain ⟨d, -, hd⟩ := List.mem_flatMap.1 hc
  rw [encodeChar] at hd
  split_ifs at hd with hset
  · obtain ⟨b, -, hb⟩ := List.mem_flatMap.1 hd
    exact h.octet b hb
  · rw [List.mem_singleton.1 hd]
    simpa using hset

theorem mem_encode (h : c ∈ encode set cs) : c ∈ cs ∨ ∃ b, c ∈ octet b := by
  obtain ⟨d, hmem, hd⟩ := List.mem_flatMap.1 h
  rw [encodeChar] at hd
  split_ifs at hd
  · obtain ⟨b, -, hb⟩ := List.mem_flatMap.1 hd
    exact .inr ⟨b, hb⟩
  · exact .inl (List.mem_singleton.1 hd ▸ hmem)

/-- A character that is encoded begins with an octet that is its own only within ASCII. -/
theorem octet_infix_encode (hc : c ∈ cs) (hset : set c = true) :
    ∃ b : UInt8, octet b <:+: encode set cs ∧ (b.toNat = c.toNat ∨ 0x80 ≤ b.toNat) := by
  obtain ⟨front, back, rfl⟩ := List.append_of_mem hc
  obtain ⟨lead, tail, hlead, -⟩ := Utf8.readChar_encodeChar c []
  refine ⟨lead, ⟨encode set front, tail.flatMap octet ++ encode set back, ?_⟩, ?_⟩
  · have hchar : encodeChar set c = octet lead ++ tail.flatMap octet := by
      rw [encodeChar, if_pos hset, hlead, List.flatMap_cons]
    rw [encode_append, encode, encode, encode, List.flatMap_cons, hchar]
    simp
  · by_cases hascii : c.toNat < 0x80
    · rw [Utf8.encodeChar, if_pos hascii] at hlead
      rw [← (List.cons.inj hlead).1, Utf8.toNat_ofNat_of_lt (by omega)]
      exact .inl rfl
    · exact .inr (Utf8.le_of_mem_encodeChar (by omega) (hlead ▸ List.mem_cons_self))

theorem encode_eq_nil_iff : encode set cs = [] ↔ cs = [] := by
  have hne : ∀ c, encodeChar set c ≠ [] := by
    intro c
    obtain ⟨lead, tail, hc, -⟩ := Utf8.readChar_encodeChar c []
    rw [encodeChar]
    split_ifs
    · rw [hc]
      nofun
    · nofun
  cases cs with
  | nil => simp [encode]
  | cons c cs => simp [encode, hne c]

/-! ## Texts that stand for themselves -/

/-- A text with its percent signs encoded. -/
def escape (cs : List Char) : List Char := cs.flatMap fun c => if c = '%' then octet 37 else [c]

theorem escape_eq_nil_iff : escape cs = [] ↔ cs = [] := by
  cases cs with
  | nil => simp [escape]
  | cons c cs =>
    simp only [escape, List.flatMap_cons, List.append_eq_nil_iff, reduceCtorEq, iff_false, not_and]
    split_ifs <;> nofun

theorem decode_encode_escape (h : Proper set) (cs : List Char) :
    decode (encode set (escape cs)) = Utf8.encodeChars cs := by
  induction cs with
  | nil => rfl
  | cons c cs ih =>
    rw [escape, List.flatMap_cons, ← escape, encode_append, Utf8.encodeChars, List.flatMap_cons,
      ← Utf8.encodeChars]
    split_ifs with hc
    · rw [hc, encode_of_forall fun _ => h.octet 37, decode_octet, ih]
      rfl
    · rw [encode, List.flatMap_singleton, encodeChar]
      split_ifs with hset
      · rw [decode_octets, ih]
      · rw [List.singleton_append, decode_cons hc, ih]

end PodCache.Url.Percent
