import PodCache.Json.Literal
import PodCache.Proofs.Text.Utf8

/-!
# Reading back JSON strings

A quoted text is scanned as one token, whatever follows it (`scan_quote`), and the octets of that
token stand for the text again (`unquote?_flatMap_escapeChar`).
-/

namespace PodCache.Json

open Ascii Text

/-! ## Escapes and plain octets -/

theorem isHexDigit_hexOctet : ∀ n < 16, isHexDigit (hexOctet n) = true := by decide

theorem hexValue?_hexOctet :
    ∀ n < 16, Bytes.hexValue? (Char.ofNat (hexOctet n).toNat) = some n := by decide

theorem hexQuad?_hexOctet {n : Nat} (h : n < 32) :
    hexQuad? zero zero (hexOctet (n / 16)) (hexOctet (n % 16)) = some n := by
  rw [hexQuad?, hexValue?_hexOctet _ (by omega), hexValue?_hexOctet _ (by omega)]
  have hz : Bytes.hexValue? (Char.ofNat (zero : UInt8).toNat) = some 0 := by decide
  simp only [hz, Option.bind_eq_bind, Option.bind_some, Option.pure_def, Option.some.injEq]
  omega

theorem scanString_shortEscape {e : UInt8} (h : isShortEscape e = true) (t : Bytes) :
    Token.scanString (backslash :: e :: t) =
      (Token.scanString t).map fun r => (backslash :: e :: r.1, r.2) := by
  have hu : e ≠ lowerU := by
    rintro rfl
    exact absurd h (by decide)
  exact (Token.scanString.eq_4 e t fun _ _ _ _ _ he _ => hu he).trans (if_pos h)

theorem scanString_unicodeEscape {a b c d : UInt8} (ha : isHexDigit a = true)
    (hb : isHexDigit b = true) (hc : isHexDigit c = true) (hd : isHexDigit d = true) (t : Bytes) :
    Token.scanString (backslash :: lowerU :: a :: b :: c :: d :: t) =
      (Token.scanString t).map fun r => (backslash :: lowerU :: a :: b :: c :: d :: r.1, r.2) :=
  (Token.scanString.eq_3 a b c d t).trans (if_pos (by rw [ha, hb, hc, hd]; rfl))

/-- An octet that is no control and no delimiter belongs to the string as it is. -/
theorem scanString_plain {b : UInt8} (hq : b ≠ Ascii.quote) (hb : b ≠ backslash)
    (hs : ¬ b < space) (t : Bytes) :
    Token.scanString (b :: t) = (Token.scanString t).map fun r => (b :: r.1, r.2) := by
  refine (Token.scanString.eq_5 b t hq (fun _ _ _ _ _ he _ => hb he) fun _ _ he _ => hb he).trans
    (if_neg ?_)
  simp [hb, hs]

theorem scanString_append_of_plain {bs : Bytes}
    (h : ∀ b ∈ bs, b ≠ Ascii.quote ∧ b ≠ backslash ∧ ¬ b < space) (t : Bytes) :
    Token.scanString (bs ++ t) = (Token.scanString t).map fun r => (bs ++ r.1, r.2) := by
  induction bs with
  | nil => simp
  | cons b bs ih =>
    obtain ⟨hq, hb, hs⟩ := h b (by simp)
    rw [List.cons_append, scanString_plain hq hb hs, ih fun x hx => h x (by simp [hx]),
      Option.map_map]
    rfl

/-- The octets of a character that needs no escape. -/
theorem plain_of_mem_encodeChar {c : Char} (h₃₂ : 32 ≤ c.toNat) (h₃₄ : c.toNat ≠ 34)
    (h₉₂ : c.toNat ≠ 92) {b : UInt8} (hb : b ∈ Utf8.encodeChar c) :
    b ≠ Ascii.quote ∧ b ≠ backslash ∧ ¬ b < space := by
  have hn : 32 ≤ b.toNat ∧ b.toNat ≠ 34 ∧ b.toNat ≠ 92 := by
    by_cases hc : 0x80 ≤ c.toNat
    · have := Utf8.le_of_mem_encodeChar hc hb
      omega
    · rw [Utf8.encodeChar, if_pos (by omega), List.mem_singleton] at hb
      rw [hb, Utf8.toNat_ofNat_of_lt (by omega)]
      exact ⟨h₃₂, h₃₄, h₉₂⟩
  obtain ⟨h₁, h₂, h₃⟩ := hn
  refine ⟨?_, ?_, ?_⟩
  · rintro rfl
    exact h₂ rfl
  · rintro rfl
    exact h₃ rfl
  · rw [UInt8.lt_iff_toNat_lt, not_lt]
    exact h₁

/-! ## Characters -/

/-- How a character stands in a string: as a short escape, as an escape of its number, or as it
is. -/
theorem escapeChar_cases (c : Char) :
    (∃ e, escapeChar c = [backslash, e] ∧ isShortEscape e = true ∧ shortEscape? e = some c) ∨
    (c.toNat < 32 ∧ escapeChar c =
      [backslash, lowerU, zero, zero, hexOctet (c.toNat / 16), hexOctet (c.toNat % 16)]) ∨
    (32 ≤ c.toNat ∧ c.toNat ≠ 34 ∧ c.toNat ≠ 92 ∧ escapeChar c = Utf8.encodeChar c) := by
  have hback : Char.ofNat c.toNat = c := Char.ofNat_toNat c
  unfold escapeChar
  split
  · exact .inl ⟨lowerB, rfl, rfl, by rw [← hback, ‹c.toNat = _›]; rfl⟩
  · exact .inl ⟨lowerT, rfl, rfl, by rw [← hback, ‹c.toNat = _›]; rfl⟩
  · exact .inl ⟨lowerN, rfl, rfl, by rw [← hback, ‹c.toNat = _›]; rfl⟩
  · exact .inl ⟨lowerF, rfl, rfl, by rw [← hback, ‹c.toNat = _›]; rfl⟩
  · exact .inl ⟨lowerR, rfl, rfl, by rw [← hback, ‹c.toNat = _›]; rfl⟩
  · exact .inl ⟨Ascii.quote, rfl, rfl, by rw [← hback, ‹c.toNat = _›]; rfl⟩
  · exact .inl ⟨backslash, rfl, rfl, by rw [← hback, ‹c.toNat = _›]; rfl⟩
  · right
    split_ifs with h
    · exact .inl ⟨h, rfl⟩
    · exact .inr ⟨by omega, by assumption, by assumption, rfl⟩

theorem scanString_escapeChar (c : Char) (t : Bytes) :
    Token.scanString (escapeChar c ++ t) =
      (Token.scanString t).map fun r => (escapeChar c ++ r.1, r.2) := by
  rcases escapeChar_cases c with ⟨e, he, hs, -⟩ | ⟨hc, he⟩ | ⟨h₁, h₂, h₃, he⟩ <;> rw [he]
  · exact scanString_shortEscape hs t
  · exact scanString_unicodeEscape (by decide) (by decide)
      (isHexDigit_hexOctet _ (by omega)) (isHexDigit_hexOctet _ (by omega)) t
  · exact scanString_append_of_plain (fun b => plain_of_mem_encodeChar h₁ h₂ h₃) t

/-- An escape of a number that is no surrogate stands for the character of that number. -/
theorem readEscape?_unicode {a b c d : UInt8} {n : Nat} (h : hexQuad? a b c d = some n)
    (hn : n < 0xD800 ∨ 0xDFFF < n) (t : Bytes) :
    readEscape? (lowerU :: a :: b :: c :: d :: t) = some (Char.ofNat n, t) := by
  show (hexQuad? a b c d).bind _ = _
  rw [h, Option.bind_some, if_pos hn]
  rfl

theorem readEscape?_short {e : UInt8} {c : Char} (h : shortEscape? e = some c) (t : Bytes) :
    readEscape? (e :: t) = some (c, t) := by
  have hu : e ≠ lowerU := by
    rintro rfl
    cases h
  rw [readEscape?, h]
  · rfl
  · rintro a b c d rest rfl
    exact absurd rfl hu

theorem readChar?_escapeChar (c : Char) (t : Bytes) :
    ∃ b tail, escapeChar c = b :: tail ∧ readChar? b (tail ++ t) = some (c, t) := by
  rcases escapeChar_cases c with ⟨e, he, -, hc⟩ | ⟨hc, he⟩ | ⟨h₁, h₂, h₃, he⟩
  · refine ⟨_, _, he, ?_⟩
    rw [readChar?, if_pos rfl]
    exact readEscape?_short hc t
  · refine ⟨_, _, he, ?_⟩
    rw [readChar?, if_pos rfl]
    refine (readEscape?_unicode (hexQuad?_hexOctet hc) (.inl (by omega)) t).trans ?_
    rw [Char.ofNat_toNat]
  · obtain ⟨b, tail, hb, hr⟩ := Utf8.readChar_encodeChar c t
    refine ⟨b, tail, he.trans hb, ?_⟩
    have hne := (plain_of_mem_encodeChar h₁ h₂ h₃ (hb ▸ List.mem_cons_self)).2.1
    rw [readChar?, if_neg hne, hr]

/-! ## Texts -/

theorem scanString_flatMap_escapeChar (cs : List Char) (t : Bytes) :
    Token.scanString (cs.flatMap escapeChar ++ Ascii.quote :: t) =
      some (cs.flatMap escapeChar, t) := by
  induction cs with
  | nil => exact Token.scanString.eq_2 t
  | cons c cs ih =>
    rw [List.flatMap_cons, List.append_assoc, scanString_escapeChar, ih]
    rfl

theorem unquoteChars?_cons {b : UInt8} {tail rest : Bytes} {c : Char}
    (h : readChar? b tail = some (c, rest)) :
    unquoteChars? (b :: tail) = (unquoteChars? rest).map (c :: ·) := by
  rw [unquoteChars?]
  split
  · rename_i heq
    rw [h] at heq
    cases heq
  · rename_i c' rest' heq
    rw [h] at heq
    obtain ⟨rfl, rfl⟩ := Prod.mk.inj (Option.some.inj heq)
    rfl

theorem unquoteChars?_flatMap_escapeChar (cs : List Char) :
    unquoteChars? (cs.flatMap escapeChar) = some cs := by
  induction cs with
  | nil => rw [List.flatMap_nil, unquoteChars?]
  | cons c cs ih =>
    obtain ⟨b, tail, hb, hr⟩ := readChar?_escapeChar c (cs.flatMap escapeChar)
    rw [List.flatMap_cons, hb, List.cons_append, unquoteChars?_cons hr, ih]
    rfl

/-- The octets between the quotes of a quoted text stand for the text. -/
theorem unquote?_flatMap_escapeChar (s : String) :
    unquote? (s.toList.flatMap escapeChar) = some s := by
  rw [unquote?, unquoteChars?_flatMap_escapeChar, Option.map_some, String.ofList_toList]

/-! ## Tokens -/

theorem scan_of_next? {b : UInt8} {rest rest' : Bytes} {t : Token} (hb : isSpace b = false)
    (h : Token.next? b rest = some (t, rest')) :
    Token.scan (b :: rest) = (Token.scan rest').map (t :: ·) := by
  rw [Token.scan, hb, if_neg Bool.false_ne_true]
  split
  · rename_i heq
    rw [h] at heq
    cases heq
  · rename_i t' rest'' heq
    rw [h] at heq
    obtain ⟨rfl, rfl⟩ := Prod.mk.inj (Option.some.inj heq)
    rfl

/-- A quoted text is scanned as one token. -/
theorem scan_quote (s : String) (t : Bytes) :
    Token.scan (quote s ++ t) =
      (Token.scan t).map (.string (s.toList.flatMap escapeChar) :: ·) := by
  rw [quote, List.cons_append, List.cons_append, List.append_assoc, List.singleton_append]
  refine scan_of_next? (by decide) ?_
  show (Token.scanString _).map _ = _
  rw [scanString_flatMap_escapeChar]
  rfl

end PodCache.Json
