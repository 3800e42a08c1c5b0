import FeatureTable.Decimal.Binary

namespace FeatureTable.Decimal

/-- The number `digits * 10 ^ exponent`. -/
structure Digits where
  digits : Nat
  exponent : Int
deriving Repr, DecidableEq

def Binary.holds (b : Binary) (d : Digits) : Bool :=
  let low := (b.quarters (4 * b.mantissa - b.below)).scale (-d.exponent)
  let high := (b.quarters (4 * b.mantissa + 2)).scale (-d.exponent)
  if b.mantissa % 2 = 0 then
    low.numerator ≤ d.digits * low.denominator && d.digits * high.denominator ≤ high.numerator
  else
    low.numerator < d.digits * low.denominator && d.digits * high.denominator < high.numerator

/-- Of the multiples of `10 ^ exponent` that round to the number, the one nearest to it; of two
equally near ones the larger. -/
def Binary.onGrid? (b : Binary) (exponent : Int) : Option Digits :=
  let v := b.value.scale (-exponent)
  let down : Digits := ⟨v.numerator / v.denominator, exponent⟩
  let up : Digits := ⟨v.numerator / v.denominator + 1, exponent⟩
  if b.holds up && (!b.holds down || v.denominator ≤ 2 * (v.numerator % v.denominator)) then some up
  else if b.holds down then some down
  else none

/-- The coarsest grid with a hit wins: no decimal with fewer digits reads back as the number.
Twenty steps below the magnitude every number has a hit. -/
def Binary.shortest (b : Binary) : Digits :=
  ((List.range 20).findSome? fun step : Nat => b.onGrid? (b.magnitude - step)).getD
    ⟨b.mantissa * Nat.pow 5 (-b.exponent).toNat * Nat.pow 2 b.exponent.toNat, min b.exponent 0⟩

end FeatureTable.Decimal
