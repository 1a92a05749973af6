import PodCache.Bytes
import PodCache.Text.Ascii

/-!
# JSON tokens

A JSON text is first cut into tokens.  `Token.scan` drops the white space between tokens and refuses
octets that begin no token.  A token keeps its spelling: a string keeps the octets between its
quotes, whose escapes are complete but may still stand for no character, and a number keeps its
digits.  What a spelling means is decided where the token is used, so parts of a text that nobody
asks for are held to the grammar alone.
-/

namespace PodCache.Json

open Ascii

/-- The spelling of a number: sign, digits before and after the point, and exponent. -/
structure Numeral where
  negative : Bool
  whole : List Nat
  /-- Empty when there is no point. -/
  fraction : List Nat
  /-- The exponent's sign, true when negative, and its digits. -/
  exponent : Option (Bool × List Nat)
  deriving DecidableEq, Repr

/-- A lexical unit of a JSON text. -/
inductive Token where
  | openArray
  | closeArray
  | openObject
  | closeObject
  | comma
  | colon
  | null
  | bool (b : Bool)
  | number (n : Numeral)
  /-- A string, with the octets between its quotes. -/
  | string (raw : Bytes)
  deriving DecidableEq, Repr

/-- Space, tab, line feed and carriage return. -/
def isSpace (b : UInt8) : Bool :=
  b == space || b == tab || b == lineFeed || b == carriageReturn

/-- Whether an octet is a hexadecimal digit of either case. -/
def isHexDigit (b : UInt8) : Bool := (Bytes.hexValue? (Char.ofNat b.toNat)).isSome

/-- Whether an octet makes an escape of one character after a backslash. -/
def isShortEscape (b : UInt8) : Bool :=
  b == quote || b == backslash || b == slash || b == lowerB || b == lowerF || b == lowerN ||
    b == lowerR || b == lowerT

namespace Token

/-! ## Strings -/

/-- The octets up to the closing quote, and those after it.  Raw controls and incomplete escapes
are refused. -/
def scanString : Bytes → Option (Bytes × Bytes)
  | [] => none
  | quote :: rest => some ([], rest)
  | backslash :: lowerU :: a :: b :: c :: d :: rest =>
    if isHexDigit a && isHexDigit b && isHexDigit c && isHexDigit d then
      (scanString rest).map fun r => (backslash :: lowerU :: a :: b :: c :: d :: r.1, r.2)
    else none
  | backslash :: e :: rest =>
    if isShortEscape e then (scanString rest).map fun r => (backslash :: e :: r.1, r.2) else none
  | b :: rest =>
    if b == backslash || b < space then none else (scanString rest).map fun r => (b :: r.1, r.2)

/-! ## Numbers -/

/-- The values of the digits at the front, and what follows them. -/
def takeDigits (bytes : Bytes) : List Nat × Bytes :=
  ((bytes.takeWhile isDigit).map fun b => b.toNat - 48, bytes.dropWhile isDigit)

/-- One digit or more. -/
def scanDigits (bytes : Bytes) : Option (List Nat × Bytes) :=
  match takeDigits bytes with
  | ([], _) => none
  | (digits, rest) => some (digits, rest)

/-- The digits before the point: a lone zero, or digits that begin with another one. -/
def scanWhole : Bytes → Option (List Nat × Bytes)
  | zero :: rest => some ([0], rest)
  | bytes => scanDigits bytes

/-- The digits after the point, none when there is no point. -/
def scanFraction : Bytes → Option (List Nat × Bytes)
  | point :: rest => scanDigits rest
  | bytes => some ([], bytes)

/-- The digits of an exponent after its optional sign. -/
def scanSigned : Bytes → Option ((Bool × List Nat) × Bytes)
  | plus :: rest => (scanDigits rest).map fun r => ((false, r.1), r.2)
  | minus :: rest => (scanDigits rest).map fun r => ((true, r.1), r.2)
  | bytes => (scanDigits bytes).map fun r => ((false, r.1), r.2)

/-- The exponent, if there is one. -/
def scanExponent : Bytes → Option (Option (Bool × List Nat) × Bytes)
  | lowerE :: rest => (scanSigned rest).map fun r => (some r.1, r.2)
  | upperE :: rest => (scanSigned rest).map fun r => (some r.1, r.2)
  | bytes => some (none, bytes)

/-- A number without its sign. -/
def scanMagnitude (negative : Bool) (bytes : Bytes) : Option (Numeral × Bytes) := do
  let (whole, rest₁) ← scanWhole bytes
  let (fraction, rest₂) ← scanFraction rest₁
  let (exponent, rest₃) ← scanExponent rest₂
  return (⟨negative, whole, fraction, exponent⟩, rest₃)

/-- A number with its sign. -/
def scanNumber : Bytes → Option (Numeral × Bytes)
  | minus :: rest => scanMagnitude true rest
  | bytes => scanMagnitude false bytes

/-! ## All tokens -/

/-- What follows a given word. -/
def after? : Bytes → Bytes → Option Bytes
  | [], bytes => some bytes
  | _ :: _, [] => none
  | w :: word, b :: bytes => if w = b then after? word bytes else none

/-- What follows the first letter of `null`. -/
def ull : Bytes := [lowerU, 108, 108]

/-- What follows the first letter of `true`. -/
def rue : Bytes := [lowerR, lowerU, lowerE]

/-- What follows the first letter of `false`. -/
def alse : Bytes := [97, 108, 115, lowerE]

/-- The token at the front of a text that begins with `b`. -/
def next? (b : UInt8) (rest : Bytes) : Option (Token × Bytes) :=
  match b with
  | openBracket => some (.openArray, rest)
  | closeBracket => some (.closeArray, rest)
  | openBrace => some (.openObject, rest)
  | closeBrace => some (.closeObject, rest)
  | Ascii.comma => some (.comma, rest)
  | Ascii.colon => some (.colon, rest)
  | quote => (scanString rest).map fun r => (.string r.1, r.2)
  | lowerN => (after? ull rest).map fun r => (.null, r)
  | lowerT => (after? rue rest).map fun r => (.bool true, r)
  | lowerF => (after? alse rest).map fun r => (.bool false, r)
  | b => (scanNumber (b :: rest)).map fun r => (.number r.1, r.2)

/-! ### Every token takes up at least one octet -/

theorem length_of_scanString {bytes raw rest : Bytes} (h : scanString bytes = some (raw, rest)) :
    rest.length < bytes.length := by
  fun_induction scanString bytes generalizing raw rest
  all_goals first
    | (simp at h; done)
    | (obtain ⟨-, rfl⟩ := Prod.mk.inj (Option.some.inj h)
       simp)
    | (rename_i ih
       obtain ⟨r, hr, he⟩ := Option.map_eq_some_iff.1 h
       obtain ⟨-, rfl⟩ := Prod.mk.inj he
       have := ih hr
       simp only [List.length_cons]
       omega)

theorem length_of_scanDigits {bytes rest : Bytes} {digits : List Nat}
    (h : scanDigits bytes = some (digits, rest)) : rest.length < bytes.length := by
  unfold scanDigits takeDigits at h
  split at h
  · simp at h
  · rename_i ds tail hne heq
    obtain ⟨rfl, rfl⟩ := Prod.mk.inj (Option.some.inj h)
    obtain ⟨hds, rfl⟩ := Prod.mk.inj heq
    have hlen := congrArg List.length (List.takeWhile_append_dropWhile (p := isDigit) (l := bytes))
    have hpos : 0 < (bytes.takeWhile isDigit).length := by
      rcases hw : bytes.takeWhile isDigit with _ | ⟨x, xs⟩
      · rw [hw] at hds
        exact absurd hds.symm (by simpa using hne)
      · simp
    rw [List.length_append] at hlen
    omega

theorem length_of_scanWhole {bytes rest : Bytes} {digits : List Nat}
    (h : scanWhole bytes = some (digits, rest)) : rest.length < bytes.length := by
  unfold scanWhole at h
  split at h
  · obtain ⟨-, rfl⟩ := Prod.mk.inj (Option.some.inj h)
    exact Nat.lt_succ_self _
  · exact length_of_scanDigits h

theorem length_of_scanFraction {bytes rest : Bytes} {digits : List Nat}
    (h : scanFraction bytes = some (digits, rest)) : rest.length ≤ bytes.length := by
  unfold scanFraction at h
  split at h
  · exact Nat.le_succ_of_le (Nat.le_of_lt (length_of_scanDigits h))
  · obtain ⟨-, rfl⟩ := Prod.mk.inj (Option.some.inj h)
    exact Nat.le_refl _

theorem length_of_scanSigned {bytes rest : Bytes} {e : Bool × List Nat}
    (h : scanSigned bytes = some (e, rest)) : rest.length < bytes.length := by
  unfold scanSigned at h
  split at h <;> obtain ⟨⟨digits, tail⟩, hd, ht⟩ := Option.map_eq_some_iff.1 h <;>
    obtain ⟨-, rfl⟩ := Prod.mk.inj ht
  · exact Nat.lt_succ_of_lt (length_of_scanDigits hd)
  · exact Nat.lt_succ_of_lt (length_of_scanDigits hd)
  · exact length_of_scanDigits hd

theorem length_of_scanExponent {bytes rest : Bytes} {e : Option (Bool × List Nat)}
    (h : scanExponent bytes = some (e, rest)) : rest.length ≤ bytes.length := by
  unfold scanExponent at h
  split at h
  · obtain ⟨⟨s, tail⟩, hs, ht⟩ := Option.map_eq_some_iff.1 h
    obtain ⟨-, rfl⟩ := Prod.mk.inj ht
    exact Nat.le_succ_of_le (Nat.le_of_lt (length_of_scanSigned hs))
  · obtain ⟨⟨s, tail⟩, hs, ht⟩ := Option.map_eq_some_iff.1 h
    obtain ⟨-, rfl⟩ := Prod.mk.inj ht
    exact Nat.le_succ_of_le (Nat.le_of_lt (length_of_scanSigned hs))
  · obtain ⟨-, rfl⟩ := Prod.mk.inj (Option.some.inj h)
    exact Nat.le_refl _

theorem length_of_scanMagnitude {negative : Bool} {bytes rest : Bytes} {n : Numeral}
    (h : scanMagnitude negative bytes = some (n, rest)) : rest.length < bytes.length := by
  simp only [scanMagnitude, Option.bind_eq_bind, Option.bind_eq_some_iff] at h
  obtain ⟨⟨w, r₁⟩, hw, ⟨f, r₂⟩, hf, ⟨e, r₃⟩, he, hn⟩ := h
  obtain ⟨-, rfl⟩ := Prod.mk.inj (Option.some.inj hn)
  exact Nat.lt_of_le_of_lt (length_of_scanExponent he)
    (Nat.lt_of_le_of_lt (length_of_scanFraction hf) (length_of_scanWhole hw))

theorem length_of_scanNumber {bytes rest : Bytes} {n : Numeral}
    (h : scanNumber bytes = some (n, rest)) : rest.length < bytes.length := by
  unfold scanNumber at h
  split at h
  · have := length_of_scanMagnitude h
    simp only [List.length_cons]
    omega
  · exact length_of_scanMagnitude h

theorem length_of_after? {word bytes rest : Bytes} (h : after? word bytes = some rest) :
    rest.length ≤ bytes.length := by
  fun_induction after? word bytes <;> grind

theorem length_of_next? {b : UInt8} {bytes rest : Bytes} {t : Token}
    (h : next? b bytes = some (t, rest)) : rest.length ≤ bytes.length := by
  unfold next? at h
  split at h
  all_goals first
    | (obtain ⟨-, rfl⟩ := Prod.mk.inj (Option.some.inj h)
       exact Nat.le_refl _)
    | (obtain ⟨r, hr, ht⟩ := Option.map_eq_some_iff.1 h
       obtain ⟨-, rfl⟩ := Prod.mk.inj ht
       first
         | exact Nat.le_of_lt (length_of_scanString hr)
         | exact length_of_after? hr
         | exact Nat.le_of_lt_succ (length_of_scanNumber hr))

/-- The tokens of a text. -/
def scan : Bytes → Option (List Token)
  | [] => some []
  | b :: rest =>
    if isSpace b then scan rest
    else
      match h : next? b rest with
      | none => none
      | some (t, rest') =>
        have : rest'.length < rest.length + 1 := Nat.lt_succ_of_le (length_of_next? h)
        (scan rest').map (t :: ·)
termination_by bytes => bytes.length

end Token

end PodCache.Json
