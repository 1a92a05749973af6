import Mathlib.Data.List.TakeWhile
import PodCache.Proofs.Json.Strings

/-!
# The grammar of JSON tokens

The octets of each token (`Token.Spelled`), and texts as tokens with white space around them
(`Scanned`).  Scanning gives tokens that a text consists of (`scanned_of_scan`), and it gives the
token whose octets are in front (`scan_token`): only a number needs something else after it.
-/

namespace PodCache.Json

open Ascii

/-- White space. -/
def Blank (bytes : Bytes) : Prop := ∀ b ∈ bytes, isSpace b = true

theorem blank_nil : Blank [] := nofun

/-! ## Numbers -/

/-- One digit or more, and their values. -/
structure Digits (bytes : Bytes) (digits : List Nat) : Prop where
  ne_nil : bytes ≠ []
  digit : ∀ b ∈ bytes, isDigit b = true
  values : digits = bytes.map fun b => b.toNat - 48

/-- The digits before the point: a zero, or digits that do not begin with one. -/
inductive Whole : Bytes → List Nat → Prop
  | zero : Whole [zero] [0]
  | digits {bytes : Bytes} {digits : List Nat} (h : Digits bytes digits)
      (hz : bytes.head? ≠ some zero) : Whole bytes digits

/-- The point and the digits after it, if there are any. -/
inductive Fraction : Bytes → List Nat → Prop
  | none : Fraction [] []
  | digits {bytes : Bytes} {digits : List Nat} (h : Digits bytes digits) :
      Fraction (point :: bytes) digits

/-- The letter of either case, an optional sign and the digits of an exponent, if there is one. -/
inductive Exponent : Bytes → Option (Bool × List Nat) → Prop
  | none : Exponent [] .none
  | unsigned {e : UInt8} {bytes : Bytes} {digits : List Nat} (he : e = lowerE ∨ e = upperE)
      (h : Digits bytes digits) : Exponent (e :: bytes) (some (false, digits))
  | positive {e : UInt8} {bytes : Bytes} {digits : List Nat} (he : e = lowerE ∨ e = upperE)
      (h : Digits bytes digits) : Exponent (e :: plus :: bytes) (some (false, digits))
  | negative {e : UInt8} {bytes : Bytes} {digits : List Nat} (he : e = lowerE ∨ e = upperE)
      (h : Digits bytes digits) : Exponent (e :: minus :: bytes) (some (true, digits))

/-- The octets of a number without its sign. -/
def Magnitude (bytes : Bytes) (n : Numeral) : Prop :=
  ∃ whole fraction exponent, bytes = whole ++ (fraction ++ exponent) ∧
    Whole whole n.whole ∧ Fraction fraction n.fraction ∧ Exponent exponent n.exponent

/-- The octets of a number. -/
inductive Numeral.Spelled : Bytes → Numeral → Prop
  | positive {bytes : Bytes} {n : Numeral} (hn : n.negative = false) (h : Magnitude bytes n) :
      Spelled bytes n
  | negative {bytes : Bytes} {n : Numeral} (hn : n.negative = true) (h : Magnitude bytes n) :
      Spelled (minus :: bytes) n

/-- The octets of a token. -/
inductive Token.Spelled : Bytes → Token → Prop
  | openArray : Spelled [openBracket] .openArray
  | closeArray : Spelled [closeBracket] .closeArray
  | openObject : Spelled [openBrace] .openObject
  | closeObject : Spelled [closeBrace] .closeObject
  | comma : Spelled [Ascii.comma] .comma
  | colon : Spelled [Ascii.colon] .colon
  | null : Spelled (lowerN :: ull) .null
  | true : Spelled (lowerT :: rue) (.bool true)
  | false : Spelled (lowerF :: alse) (.bool false)
  | number {bytes : Bytes} {n : Numeral} (h : n.Spelled bytes) : Spelled bytes (.number n)
  | string {raw : Bytes} (h : StringBody raw) :
      Spelled (Ascii.quote :: (raw ++ [Ascii.quote])) (.string raw)

/-! ## What the scanner takes -/

theorem digits_of_scanDigits {bytes rest : Bytes} {digits : List Nat}
    (h : Token.scanDigits bytes = some (digits, rest)) :
    ∃ taken, bytes = taken ++ rest ∧ Digits taken digits := by
  unfold Token.scanDigits Token.takeDigits at h
  split at h
  · cases h
  · rename_i ds tail hne heq
    obtain ⟨rfl, rfl⟩ := Prod.mk.inj (Option.some.inj h)
    obtain ⟨hds, rfl⟩ := Prod.mk.inj heq
    refine ⟨bytes.takeWhile isDigit, List.takeWhile_append_dropWhile.symm, ?_, ?_, hds.symm⟩
    · intro hnil
      rw [hnil] at hds
      exact hne hds.symm
    · exact fun b hb => List.mem_takeWhile_imp hb

theorem whole_of_scanWhole {bytes rest : Bytes} {digits : List Nat}
    (h : Token.scanWhole bytes = some (digits, rest)) :
    ∃ taken, bytes = taken ++ rest ∧ Whole taken digits := by
  unfold Token.scanWhole at h
  split at h
  · obtain ⟨rfl, rfl⟩ := Prod.mk.inj (Option.some.inj h)
    exact ⟨[zero], rfl, .zero⟩
  · rename_i hz
    obtain ⟨taken, rfl, hd⟩ := digits_of_scanDigits h
    refine ⟨taken, rfl, .digits hd fun hhead => ?_⟩
    obtain ⟨tail, rfl⟩ := List.head?_eq_some_iff.1 hhead
    exact hz _ rfl

theorem fraction_of_scanFraction {bytes rest : Bytes} {digits : List Nat}
    (h : Token.scanFraction bytes = some (digits, rest)) :
    ∃ taken, bytes = taken ++ rest ∧ Fraction taken digits := by
  unfold Token.scanFraction at h
  split at h
  · obtain ⟨taken, rfl, hd⟩ := digits_of_scanDigits h
    exact ⟨point :: taken, rfl, .digits hd⟩
  · obtain ⟨rfl, rfl⟩ := Prod.mk.inj (Option.some.inj h)
    exact ⟨[], rfl, .none⟩

theorem exponent_of_scanSigned {e : UInt8} (he : e = lowerE ∨ e = upperE) {bytes rest : Bytes}
    {x : Bool × List Nat} (h : Token.scanSigned bytes = some (x, rest)) :
    ∃ taken, e :: bytes = taken ++ rest ∧ Exponent taken (some x) := by
  unfold Token.scanSigned at h
  split at h <;> obtain ⟨digits, hd, rfl⟩ := map_fst_eq_some_iff.1 h <;>
    obtain ⟨taken, rfl, hds⟩ := digits_of_scanDigits hd
  · exact ⟨e :: plus :: taken, rfl, .positive he hds⟩
  · exact ⟨e :: minus :: taken, rfl, .negative he hds⟩
  · exact ⟨e :: taken, rfl, .unsigned he hds⟩

theorem exponent_of_scanExponent {bytes rest : Bytes} {x : Option (Bool × List Nat)}
    (h : Token.scanExponent bytes = some (x, rest)) :
    ∃ taken, bytes = taken ++ rest ∧ Exponent taken x := by
  unfold Token.scanExponent at h
  split at h
  · obtain ⟨y, hs, rfl⟩ := map_fst_eq_some_iff.1 h
    exact exponent_of_scanSigned (.inl rfl) hs
  · obtain ⟨y, hs, rfl⟩ := map_fst_eq_some_iff.1 h
    exact exponent_of_scanSigned (.inr rfl) hs
  · obtain ⟨rfl, rfl⟩ := Prod.mk.inj (Option.some.inj h)
    exact ⟨[], rfl, .none⟩

theorem magnitude_of_scanMagnitude {negative : Bool} {bytes rest : Bytes} {n : Numeral}
    (h : Token.scanMagnitude negative bytes = some (n, rest)) :
    ∃ taken, bytes = taken ++ rest ∧ Magnitude taken n ∧ n.negative = negative := by
  simp only [Token.scanMagnitude, Option.bind_eq_bind, Option.bind_eq_some_iff] at h
  obtain ⟨⟨w, r₁⟩, hw, ⟨f, r₂⟩, hf, ⟨e, r₃⟩, he, hn⟩ := h
  obtain ⟨rfl, rfl⟩ := Prod.mk.inj (Option.some.inj hn)
  obtain ⟨whole, rfl, hwhole⟩ := whole_of_scanWhole hw
  obtain ⟨fraction, rfl, hfraction⟩ := fraction_of_scanFraction hf
  obtain ⟨exponent, rfl, hexponent⟩ := exponent_of_scanExponent he
  exact ⟨whole ++ (fraction ++ exponent), by simp only [List.append_assoc],
    ⟨whole, fraction, exponent, rfl, hwhole, hfraction, hexponent⟩, rfl⟩

theorem spelled_of_scanNumber {bytes rest : Bytes} {n : Numeral}
    (h : Token.scanNumber bytes = some (n, rest)) :
    ∃ taken, bytes = taken ++ rest ∧ n.Spelled taken := by
  unfold Token.scanNumber at h
  split at h
  · obtain ⟨taken, rfl, hm, hn⟩ := magnitude_of_scanMagnitude h
    exact ⟨minus :: taken, rfl, .negative hn hm⟩
  · obtain ⟨taken, rfl, hm, hn⟩ := magnitude_of_scanMagnitude h
    exact ⟨taken, rfl, .positive hn hm⟩

theorem eq_append_of_after? {word bytes rest : Bytes} (h : Token.after? word bytes = some rest) :
    bytes = word ++ rest := by
  fun_induction Token.after? word bytes with
  | case1 bytes => exact Option.some.inj h
  | case2 => cases h
  | case3 word b bytes ih => exact congrArg (b :: ·) (ih h)
  | case4 => cases h

/-- The scanner takes the octets of a token. -/
theorem spelled_of_next? {b : UInt8} {bytes rest : Bytes} {t : Token}
    (h : Token.next? b bytes = some (t, rest)) :
    ∃ taken, b :: bytes = taken ++ rest ∧ t.Spelled taken := by
  unfold Token.next? at h
  split at h
  · obtain ⟨rfl, rfl⟩ := Prod.mk.inj (Option.some.inj h)
    exact ⟨_, rfl, .openArray⟩
  · obtain ⟨rfl, rfl⟩ := Prod.mk.inj (Option.some.inj h)
    exact ⟨_, rfl, .closeArray⟩
  · obtain ⟨rfl, rfl⟩ := Prod.mk.inj (Option.some.inj h)
    exact ⟨_, rfl, .openObject⟩
  · obtain ⟨rfl, rfl⟩ := Prod.mk.inj (Option.some.inj h)
    exact ⟨_, rfl, .closeObject⟩
  · obtain ⟨rfl, rfl⟩ := Prod.mk.inj (Option.some.inj h)
    exact ⟨_, rfl, .comma⟩
  · obtain ⟨rfl, rfl⟩ := Prod.mk.inj (Option.some.inj h)
    exact ⟨_, rfl, .colon⟩
  · obtain ⟨raw, hr, rfl⟩ := map_fst_eq_some_iff.1 h
    obtain ⟨hbody, rfl⟩ := scanString_eq_some_iff.1 hr
    exact ⟨_, by rw [List.cons_append, List.append_assoc]; rfl, .string hbody⟩
  · obtain ⟨tail, hr, ht⟩ := Option.map_eq_some_iff.1 h
    obtain ⟨rfl, rfl⟩ := Prod.mk.inj ht
    exact ⟨lowerN :: Token.ull, congrArg (lowerN :: ·) (eq_append_of_after? hr), .null⟩
  · obtain ⟨tail, hr, ht⟩ := Option.map_eq_some_iff.1 h
    obtain ⟨rfl, rfl⟩ := Prod.mk.inj ht
    exact ⟨lowerT :: Token.rue, congrArg (lowerT :: ·) (eq_append_of_after? hr), .true⟩
  · obtain ⟨tail, hr, ht⟩ := Option.map_eq_some_iff.1 h
    obtain ⟨rfl, rfl⟩ := Prod.mk.inj ht
    exact ⟨lowerF :: Token.alse, congrArg (lowerF :: ·) (eq_append_of_after? hr), .false⟩
  · obtain ⟨n, hr, rfl⟩ := map_fst_eq_some_iff.1 h
    obtain ⟨taken, hb, hn⟩ := spelled_of_scanNumber hr
    exact ⟨taken, hb, .number hn⟩

/-- A sequence of tokens with white space around and between them. -/
inductive Scanned : Bytes → List Token → Prop
  | nil {w : Bytes} (hw : Blank w) : Scanned w []
  | cons {w taken rest : Bytes} {t : Token} {tokens : List Token} (hw : Blank w)
      (ht : t.Spelled taken) (h : Scanned rest tokens) :
      Scanned (w ++ (taken ++ rest)) (t :: tokens)

theorem Scanned.space {b : UInt8} {bytes : Bytes} {tokens : List Token} (hb : isSpace b = true)
    (h : Scanned bytes tokens) : Scanned (b :: bytes) tokens := by
  cases h with
  | nil hw => exact .nil (List.forall_mem_cons.2 ⟨hb, hw⟩)
  | cons hw ht h => exact .cons (List.forall_mem_cons.2 ⟨hb, hw⟩) ht h

/-- Scanning gives the tokens of a text. -/
theorem scanned_of_scan {bytes : Bytes} {tokens : List Token}
    (h : Token.scan bytes = some tokens) : Scanned bytes tokens := by
  fun_induction Token.scan bytes generalizing tokens with
  | case1 =>
    obtain rfl := Option.some.inj h
    exact .nil blank_nil
  | case2 b rest hb ih => exact (ih h).space hb
  | case3 => cases h
  | case4 b rest _ t rest' hnext _ ih =>
    obtain ⟨tail, htail, rfl⟩ := Option.map_eq_some_iff.1 h
    obtain ⟨taken, hb, ht⟩ := spelled_of_next? hnext
    rw [hb]
    exact Scanned.cons blank_nil ht (ih htail)

/-! ## What the scanner is given -/

/-- No octet of a number is first. -/
def Halts (rest : Bytes) : Prop :=
  ∀ b ∈ rest.head?, isDigit b = false ∧ b ≠ point ∧ b ≠ lowerE ∧ b ≠ upperE

theorem halts_nil : Halts [] := by
  rintro b ⟨⟩

theorem halts_cons {b : UInt8} {rest : Bytes}
    (h : isDigit b = false ∧ b ≠ point ∧ b ≠ lowerE ∧ b ≠ upperE) : Halts (b :: rest) := by
  rintro _ ⟨⟩
  exact h

theorem Halts.blank_append {w rest : Bytes} (hw : Blank w) (h : Halts rest) :
    Halts (w ++ rest) := by
  cases w with
  | nil => exact h
  | cons b w =>
    have hb := hw b List.mem_cons_self
    simp only [isSpace, Bool.or_eq_true, beq_iff_eq] at hb
    rcases hb with ((rfl | rfl) | rfl) | rfl <;> exact halts_cons (by decide)

theorem Digits.exists_cons {bytes : Bytes} {digits : List Nat} (h : Digits bytes digits) :
    ∃ b tail, bytes = b :: tail ∧ isDigit b = true := by
  obtain ⟨b, tail, rfl⟩ := List.exists_cons_of_ne_nil h.ne_nil
  exact ⟨b, tail, rfl, h.digit b List.mem_cons_self⟩

theorem scanDigits_append {bytes rest : Bytes} {digits : List Nat} (h : Digits bytes digits)
    (hr : ∀ b ∈ rest.head?, isDigit b = false) :
    Token.scanDigits (bytes ++ rest) = some (digits, rest) := by
  have htake : rest.takeWhile isDigit = [] := by
    cases rest with
    | nil => rfl
    | cons b rest => exact List.takeWhile_cons_of_neg (by simp [hr b rfl])
  have hdrop : rest.dropWhile isDigit = rest := by
    cases rest with
    | nil => rfl
    | cons b rest => exact List.dropWhile_cons_of_neg (by simp [hr b rfl])
  have hall : Token.takeDigits (bytes ++ rest) = (digits, rest) := by
    rw [Token.takeDigits, List.takeWhile_append_of_pos h.digit,
      List.dropWhile_append_of_pos h.digit, htake, hdrop, List.append_nil, h.values]
  rw [Token.scanDigits, hall]
  split
  · rename_i heq
    obtain ⟨hnil, -⟩ := Prod.mk.inj heq
    rw [h.values, List.map_eq_nil_iff] at hnil
    exact absurd hnil h.ne_nil
  · rename_i heq
    rw [heq]

theorem scanWhole_append {bytes rest : Bytes} {digits : List Nat} (h : Whole bytes digits)
    (hr : ∀ b ∈ rest.head?, isDigit b = false) :
    Token.scanWhole (bytes ++ rest) = some (digits, rest) := by
  cases h with
  | zero => rfl
  | digits hd hz =>
    rw [← scanDigits_append hd hr]
    obtain ⟨b, tail, rfl⟩ := List.exists_cons_of_ne_nil hd.ne_nil
    unfold Token.scanWhole
    split
    · rename_i heq
      exact absurd (congrArg some (List.cons.inj heq).1) hz
    · rfl

theorem scanFraction_append {bytes rest : Bytes} {digits : List Nat} (h : Fraction bytes digits)
    (hr : ∀ b ∈ rest.head?, isDigit b = false ∧ b ≠ point) :
    Token.scanFraction (bytes ++ rest) = some (digits, rest) := by
  cases h with
  | none =>
    rw [List.nil_append]
    unfold Token.scanFraction
    split
    · exact absurd rfl (hr point rfl).2
    · rfl
  | digits hd => exact scanDigits_append hd fun b hb => (hr b hb).1

theorem scanExponent_append {bytes rest : Bytes} {x : Option (Bool × List Nat)}
    (h : Exponent bytes x) (hr : Halts rest) :
    Token.scanExponent (bytes ++ rest) = some (x, rest) := by
  have letter : ∀ {e : UInt8} (tail : Bytes), e = lowerE ∨ e = upperE →
      Token.scanExponent (e :: tail) = (Token.scanSigned tail).map fun r => (some r.1, r.2) := by
    rintro e tail (rfl | rfl) <;> rfl
  have hdigit : ∀ b ∈ rest.head?, isDigit b = false := fun b hb => (hr b hb).1
  cases h with
  | none =>
    rw [List.nil_append]
    unfold Token.scanExponent
    split
    · exact absurd rfl (hr lowerE rfl).2.2.1
    · exact absurd rfl (hr upperE rfl).2.2.2
    · rfl
  | @unsigned e bytes digits he hd =>
    have hsign : Token.scanSigned (bytes ++ rest) =
        (Token.scanDigits (bytes ++ rest)).map fun r => ((false, r.1), r.2) := by
      obtain ⟨b, tail, rfl, hb⟩ := hd.exists_cons
      unfold Token.scanSigned
      split
      · rename_i heq
        rw [(List.cons.inj heq).1] at hb
        cases hb
      · rename_i heq
        rw [(List.cons.inj heq).1] at hb
        cases hb
      · rfl
    rw [List.cons_append, letter _ he, hsign, scanDigits_append hd hdigit]
    rfl
  | positive he hd =>
    rw [List.cons_append, List.cons_append, letter _ he]
    show ((Token.scanDigits _).map _).map _ = _
    rw [scanDigits_append hd hdigit]
    rfl
  | negative he hd =>
    rw [List.cons_append, List.cons_append, letter _ he]
    show ((Token.scanDigits _).map _).map _ = _
    rw [scanDigits_append hd hdigit]
    rfl

/-- What follows a fraction begins neither with a digit nor with a point. -/
theorem Exponent.head_append {bytes rest : Bytes} {x : Option (Bool × List Nat)}
    (h : Exponent bytes x) (hr : Halts rest) :
    ∀ b ∈ (bytes ++ rest).head?, isDigit b = false ∧ b ≠ point := by
  have letter : ∀ {e : UInt8}, e = lowerE ∨ e = upperE → isDigit e = false ∧ e ≠ point := by
    rintro e (rfl | rfl) <;> decide
  cases h with
  | none => exact fun b hb => ⟨(hr b hb).1, (hr b hb).2.1⟩
  | unsigned he _ => rintro _ ⟨⟩; exact letter he
  | positive he _ => rintro _ ⟨⟩; exact letter he
  | negative he _ => rintro _ ⟨⟩; exact letter he

theorem Fraction.head_append {bytes rest : Bytes} {digits : List Nat} (h : Fraction bytes digits)
    (hr : ∀ b ∈ rest.head?, isDigit b = false) :
    ∀ b ∈ (bytes ++ rest).head?, isDigit b = false := by
  cases h with
  | none => exact hr
  | digits _ => rintro _ ⟨⟩; rfl

theorem scanMagnitude_append {bytes rest : Bytes} {n : Numeral} (h : Magnitude bytes n)
    (hr : Halts rest) :
    Token.scanMagnitude n.negative (bytes ++ rest) = some (n, rest) := by
  obtain ⟨whole, fraction, exponent, rfl, hw, hf, he⟩ := h
  -- Each part ends where the next one, or what follows the number, begins.
  have hhead := he.head_append hr
  rw [List.append_assoc, List.append_assoc, Token.scanMagnitude,
    scanWhole_append hw (hf.head_append fun b hb => (hhead b hb).1)]
  simp only [Option.bind_eq_bind, Option.bind_some, scanFraction_append hf hhead,
    scanExponent_append he hr, Option.pure_def]

theorem Magnitude.exists_cons {bytes : Bytes} {n : Numeral} (h : Magnitude bytes n) :
    ∃ b tail, bytes = b :: tail ∧ isDigit b = true := by
  obtain ⟨whole, fraction, exponent, rfl, hw, -, -⟩ := h
  generalize n.whole = digits at hw
  cases hw with
  | zero => exact ⟨zero, _, rfl, by decide⟩
  | digits hd _ =>
    obtain ⟨b, tail, rfl, hb⟩ := hd.exists_cons
    exact ⟨b, _, rfl, hb⟩

theorem next?_of_number {b : UInt8} (h : isDigit b = true ∨ b = minus) (rest : Bytes) :
    Token.next? b rest = (Token.scanNumber (b :: rest)).map fun r => (.number r.1, r.2) := by
  unfold Token.next?
  split
  all_goals first
    | rfl
    | exact absurd h (by decide)

theorem isSpace_of_number {b : UInt8} (h : isDigit b = true ∨ b = minus) : isSpace b = false := by
  rw [Bool.eq_false_iff]
  intro hs
  simp only [isSpace, Bool.or_eq_true, beq_iff_eq] at hs
  rcases hs with ((rfl | rfl) | rfl) | rfl <;> exact absurd h (by decide)

theorem scanNumber_append {bytes rest : Bytes} {n : Numeral} (h : n.Spelled bytes)
    (hr : Halts rest) : Token.scanNumber (bytes ++ rest) = some (n, rest) := by
  cases h with
  | negative hn hm =>
    rw [← scanMagnitude_append hm hr, hn]
    rfl
  | positive hn hm =>
    rw [← scanMagnitude_append hm hr, hn]
    obtain ⟨b, tail, rfl, hb⟩ := hm.exists_cons
    unfold Token.scanNumber
    split
    · rename_i heq
      rw [(List.cons.inj heq).1] at hb
      cases hb
    · rfl

theorem after?_append (word rest : Bytes) : Token.after? word (word ++ rest) = some rest := by
  induction word with
  | nil => rfl
  | cons b word ih => rw [List.cons_append, Token.after?, if_pos rfl, ih]

theorem scan_number {bytes rest : Bytes} {n : Numeral} (h : n.Spelled bytes) (hr : Halts rest) :
    Token.scan (bytes ++ rest) = (Token.scan rest).map (.number n :: ·) := by
  obtain ⟨b, tail, rfl, hb⟩ : ∃ b tail, bytes = b :: tail ∧ (isDigit b = true ∨ b = minus) := by
    cases h with
    | negative _ _ => exact ⟨minus, _, rfl, .inr rfl⟩
    | positive _ hm =>
      obtain ⟨b, tail, rfl, hb⟩ := hm.exists_cons
      exact ⟨b, tail, rfl, .inl hb⟩
  refine scan_of_next? (isSpace_of_number hb) ?_
  show Token.next? b (tail ++ rest) = _
  rw [next?_of_number hb, ← List.cons_append, scanNumber_append h hr]
  rfl

/-- The octets of a token are scanned as this token.  A number ends where the next octet is none of
a number. -/
theorem scan_token {bytes rest : Bytes} {t : Token} (h : t.Spelled bytes)
    (hr : ∀ n, t = .number n → Halts rest) :
    Token.scan (bytes ++ rest) = (Token.scan rest).map (t :: ·) := by
  cases h with
  | openArray => exact scan_of_next? (by decide) rfl
  | closeArray => exact scan_of_next? (by decide) rfl
  | openObject => exact scan_of_next? (by decide) rfl
  | closeObject => exact scan_of_next? (by decide) rfl
  | comma => exact scan_of_next? (by decide) rfl
  | colon => exact scan_of_next? (by decide) rfl
  | null =>
    exact scan_of_next? (by decide) (congrArg (Option.map _) (after?_append Token.ull rest))
  | true =>
    exact scan_of_next? (by decide) (congrArg (Option.map _) (after?_append Token.rue rest))
  | false =>
    exact scan_of_next? (by decide) (congrArg (Option.map _) (after?_append Token.alse rest))
  | number h => exact scan_number h (hr _ rfl)
  | @string raw h =>
    refine scan_of_next? (by decide) ?_
    show (Token.scanString (raw ++ [Ascii.quote] ++ rest)).map _ = _
    rw [List.append_assoc, List.singleton_append, scanString_eq_some_iff.2 ⟨h, rfl⟩]
    rfl

theorem scan_blank {w : Bytes} (hw : Blank w) (rest : Bytes) :
    Token.scan (w ++ rest) = Token.scan rest := by
  induction w with
  | nil => rfl
  | cons b w ih =>
    obtain ⟨hb, hw⟩ := List.forall_mem_cons.1 hw
    rw [List.cons_append, Token.scan, if_pos hb, ih hw]

end PodCache.Json
