import PodCache.Number.Binary64

/-!
# Shortest decimal text of a binary number

Many decimals round to the same binary value.  `Binary64.shortest` picks one with the fewest
significant digits, and among those the one nearest to the value, a tie going to the even digit.
Each decimal grid is tested from the coarsest on, in exact arithmetic; seventeen digits always
suffice.
-/

namespace PodCache

/-- The decimal number `digits * 10 ^ exponent`. -/
structure Decimal where
  digits : Nat
  exponent : Int
  deriving DecidableEq, Repr

namespace Decimal

/-- The same number without trailing zeros among its digits. -/
def trim (d : Decimal) : Decimal :=
  if d.digits = 0 then d
  else
    let zeros := ((Nat.toDigits 10 d.digits).reverse.takeWhile (· == '0')).length
    ⟨d.digits / Nat.pow 10 zeros, d.exponent + zeros⟩

end Decimal

namespace Binary64

/-- The exponent of the power of ten at or below `num / den`. -/
def decimalExponent (num den : Nat) : Int :=
  if den ≤ num then ((Nat.toDigits 10 (num / den)).length : Int) - 1
  else -((Nat.toDigits 10 ((den + num - 1) / num - 1)).length : Int)

/-- The nearest point of the grid of multiples of `10 ^ exponent` that rounds to the value, if
there is one.  Bounds are in quarters of the last bit: the interval of decimals that round to the
value reaches half a bit up and down, and only a quarter down from a power of two; its ends belong
to it when the mantissa is even. -/
def onGrid? (x : Binary64) (exponent : Int) : Option Decimal :=
  let unit := Nat.pow 2 x.shift
  let exact := 4 * x.mantissa * unit
  let low := (4 * x.mantissa - if x.mantissa = leadingBit ∧ 0 < x.shift then 1 else 2) * unit
  let high := (4 * x.mantissa + 2) * unit
  let den := 4 * unitsPerOne
  -- A point `d` of the grid compares with a bound `b` as `d * step` with `b * scale`.
  let step := if 0 ≤ exponent then Nat.pow 10 exponent.toNat * den else den
  let scale := if 0 ≤ exponent then 1 else Nat.pow 10 (-exponent).toNat
  let below := exact * scale / step
  let rounds (d : Nat) : Bool :=
    if x.mantissa % 2 = 0 then low * scale ≤ d * step ∧ d * step ≤ high * scale
    else low * scale < d * step ∧ d * step < high * scale
  let gapBelow := exact * scale - below * step
  let gapAbove := (below + 1) * step - exact * scale
  if rounds below then
    if rounds (below + 1) ∧ (gapAbove < gapBelow ∨ (gapAbove = gapBelow ∧ below % 2 = 1)) then
      some ⟨below + 1, exponent⟩
    else some ⟨below, exponent⟩
  else if rounds (below + 1) then some ⟨below + 1, exponent⟩
  else none

/-- The shortest decimal that rounds to the value. -/
def shortest (x : Binary64) : Decimal :=
  if x.isZero then ⟨0, 0⟩
  else
    let top := decimalExponent x.units unitsPerOne
    match (List.range 17).findSome? fun (n : Nat) => x.onGrid? (top - (n : Int)) with
    | some d => d.trim
    | none => ⟨0, 0⟩

end Binary64

end PodCache
