import PodCache.Json.Token
import PodCache.Number.Shortest

/-!
# Numbers in JSON

A number written without point and exponent is an integer when it fits a 64-bit word; every other
number is a binary floating-point value.  Reading takes as many leading digits as fit a word, turns
them into the nearest binary value and scales it by a power of ten with one more rounding; a value
beyond the range of the format is refused.  Writing uses the shortest digits.
-/

namespace PodCache.Json

/-- A number as a value. -/
inductive Number where
  /-- An integer between `-2 ^ 63` and `2 ^ 64 - 1`. -/
  | int (n : Int)
  | float (negative : Bool) (magnitude : Binary64)
  deriving DecidableEq, Repr

namespace Numeral

/-- Appends digits to a number while it fits a 64-bit word; the rest of the digits is left. -/
def takeWord : Nat → List Nat → Nat × List Nat
  | n, [] => (n, [])
  | n, d :: digits =>
    if n * 10 + d < UInt64.size then takeWord (n * 10 + d) digits else (n, d :: digits)

/-- The value nearest to a power of ten. -/
def tenTo (n : Nat) : Binary64 := Binary64.ofNat (Nat.pow 10 n)

/-- Scales a value by a power of ten.  Powers beyond `10 ^ 308` are applied in several steps. -/
def scale? (x : Binary64) (exponent : Int) : Option Binary64 :=
  if exponent.natAbs ≤ 308 then
    if 0 ≤ exponent then
      let y := x.mul (tenTo exponent.toNat)
      if y.isFinite then some y else none
    else some (x.div (tenTo exponent.natAbs))
  else if x.isZero then some x
  else if 0 ≤ exponent then none
  else scale? (x.div (tenTo 308)) (exponent + 308)
termination_by exponent.natAbs
decreasing_by omega

/-- The exponent that is written out. -/
def writtenExponent (n : Numeral) : Int :=
  match n.exponent with
  | none => 0
  | some (negative, digits) =>
    let e : Nat := digits.foldl (fun e d => e * 10 + d) 0
    if negative then -(e : Int) else (e : Int)

/-- The magnitude of a numeral as a floating-point value. -/
def float? (n : Numeral) : Option Binary64 :=
  let (word, dropped) := takeWord 0 n.whole
  let (word', unused) := takeWord word n.fraction
  let used := n.fraction.length - unused.length
  scale? (Binary64.ofNat word') ((dropped.length : Int) - (used : Int) + n.writtenExponent)

/-- The value of a numeral, if it is in range.  Minus zero is a floating-point value. -/
def value? (n : Numeral) : Option Number :=
  let (word, dropped) := takeWord 0 n.whole
  if n.fraction.isEmpty ∧ n.exponent.isNone ∧ dropped.isEmpty ∧
      (n.negative → 0 < word ∧ word ≤ 0x8000000000000000) then
    some (.int (if n.negative then -(word : Int) else (word : Int)))
  else n.float?.map (.float n.negative)

/-- The value of a numeral that is an integer. -/
def int? (n : Numeral) : Option Int :=
  match n.value? with
  | some (.int i) => some i
  | _ => none

end Numeral

namespace Number

/-- The digits of a decimal with the point where it belongs: positional while the point stands at
most sixteen places after the first digit and at most four zeros follow it, else with an exponent
that bears its sign.  A whole number shows one decimal place. -/
def decimalText (d : Decimal) : String :=
  let digits := Nat.toDigits 10 d.digits
  let point := (digits.length : Int) + d.exponent
  let zeros (n : Nat) : List Char := List.replicate n '0'
  if 0 ≤ d.exponent ∧ point ≤ 16 then
    String.ofList (digits ++ zeros d.exponent.toNat) ++ ".0"
  else if 0 < point ∧ point ≤ 16 then
    String.ofList (digits.take point.toNat ++ '.' :: digits.drop point.toNat)
  else if -5 < point ∧ point ≤ 0 then
    "0." ++ String.ofList (zeros (-point).toNat ++ digits)
  else
    let tail := if digits.length = 1 then [] else '.' :: digits.drop 1
    String.ofList (digits.take 1 ++ tail) ++ (if 0 < point then "e+" else "e") ++
      toString (point - 1)

/-- The text of a number. -/
def text : Number → String
  | .int n => toString n
  | .float negative x =>
    (if negative then "-" else "") ++ if x.isZero then "0.0" else decimalText x.shortest

end Number

end PodCache.Json
