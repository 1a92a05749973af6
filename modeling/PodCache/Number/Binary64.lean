/-!
# Binary floating point

Ratios, shares of a capacity and decimal numbers are computed in the 64-bit binary format: 53
significant bits, and every operation is its exact result rounded to the nearest representable
value, a tie going to the even significand.  The arithmetic here is exact arithmetic on natural
numbers followed by that one rounding, so nothing about it has to be assumed.

A value is a whole number of units of `2 ^ -1074`, the smallest positive value of the format.
Only values from zero on occur.
-/

namespace PodCache

/-! ## Rounding of quotients -/

/-- The whole number nearest to `num / den`; a tie goes to the even neighbour. -/
def roundHalfEven (num den : Nat) : Nat :=
  let q := num / den
  let twice := 2 * (num % den)
  if twice < den ∨ (twice = den ∧ q % 2 = 0) then q else q + 1

/-- The whole number nearest to `num / den`; a tie goes up. -/
def roundHalfUp (num den : Nat) : Nat := (2 * num + den) / (2 * den)

/-! ## Values -/

/-- The value `mantissa * 2 ^ shift` in units of `2 ^ -1074`.  The operations below keep the
mantissa below `2 ^ 53`, and at least `2 ^ 52` unless the shift is zero. -/
structure Binary64 where
  mantissa : Nat
  shift : Nat
  deriving DecidableEq, Repr

namespace Binary64

/-- The weight of the leading one of 53 significant bits. -/
def leadingBit : Nat := Nat.pow 2 52

/-- How many units make one. -/
def unitsPerOne : Nat := Nat.pow 2 1074

/-- The value in units. -/
def units (x : Binary64) : Nat := x.mantissa * Nat.pow 2 x.shift

/-- The value nearest to `num / den` units. -/
def nearest (num den : Nat) : Binary64 :=
  let shift := Nat.log2 (num / den) - 52
  let mantissa := roundHalfEven num (den * Nat.pow 2 shift)
  if mantissa = 2 * leadingBit then ⟨leadingBit, shift + 1⟩ else ⟨mantissa, shift⟩

/-- The value nearest to the quotient of two whole numbers. -/
def ofRatio (num den : Nat) : Binary64 := nearest (num * unitsPerOne) den

/-- The value nearest to a whole number. -/
def ofNat (n : Nat) : Binary64 := ofRatio n 1

/-- The rounded product. -/
def mul (x y : Binary64) : Binary64 := nearest (x.units * y.units) unitsPerOne

/-- The rounded quotient. -/
def div (x y : Binary64) : Binary64 := nearest (x.units * unitsPerOne) y.units

/-- Whether the value is zero. -/
def isZero (x : Binary64) : Bool := x.mantissa == 0

/-- Whether the value lies in the range of the format. -/
def isFinite (x : Binary64) : Bool := x.shift ≤ 2045

/-- The nearest whole number; a tie goes up. -/
def round (x : Binary64) : Nat := roundHalfUp x.units unitsPerOne

/-- The encoding as a 64-bit word. -/
def bits (x : Binary64) : Nat :=
  if x.mantissa < leadingBit then x.mantissa
  else (x.shift + 1) * leadingBit + (x.mantissa - leadingBit)

/-- The text with two decimal places, rounded from the exact value; a tie goes to the even
neighbour. -/
def twoPlaces (x : Binary64) : String :=
  let hundredths := roundHalfEven (x.units * 100) unitsPerOne
  let cents := Nat.toDigits 10 (100 + hundredths % 100)
  toString (hundredths / 100) ++ "." ++ String.ofList (cents.drop 1)

end Binary64

end PodCache
