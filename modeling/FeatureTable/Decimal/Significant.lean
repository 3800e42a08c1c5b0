import FeatureTable.Decimal.Plain

namespace FeatureTable.Decimal

/-- The nearest whole number; a half goes to the even neighbour. -/
def Fraction.round (f : Fraction) : Nat :=
  let quotient := f.numerator / f.denominator
  let twice := 2 * (f.numerator % f.denominator)
  if twice < f.denominator || (twice == f.denominator && quotient % 2 == 0) then quotient
  else quotient + 1

def Binary.leading (b : Binary) : Int :=
  ((List.range 4).findSome? fun step : Nat =>
    let power := b.magnitude - step
    let v := b.value.scale (-power)
    if v.denominator ≤ v.numerator then some power else none).getD (b.magnitude - 4)

/-- `count` significant digits of the exact value. -/
def Binary.significant (b : Binary) (count : Nat) : Digits :=
  let unit := b.leading + 1 - count
  let digits := (b.value.scale (-unit)).round
  if digits = Nat.pow 10 count then ⟨Nat.pow 10 (count - 1), unit + 1⟩ else ⟨digits, unit⟩

/-- One digit before the point, the others after it, then the power of ten. -/
def Digits.scientific (d : Digits) : String :=
  match Nat.toDigits 10 d.digits with
  | [] => ""
  | first :: others =>
      let point := if others.isEmpty then "" else "." ++ String.ofList others
      String.singleton first ++ point ++ "e" ++ toString (d.exponent + others.length)

/-- Zero and the values that are not finite are written as `plain` writes them. -/
def significant (count : Nat) (x : Float) : String :=
  if x.isNaN || x.isInf || x == 0 then plain x
  else (if isNegative x then "-" else "") ++ ((Binary.ofFloat x).significant count).scientific

end FeatureTable.Decimal
