import FeatureTable.Decimal.Shortest

namespace FeatureTable.Decimal

/-- Numbers are written with the shortest digits that read back, always positionally: never an
exponent, no point without a digit after it. -/
def Digits.plain (d : Digits) : String :=
  let text := Nat.toDigits 10 d.digits
  if 0 ≤ d.exponent then String.ofList (text ++ List.replicate d.exponent.toNat '0')
  else
    let places := (-d.exponent).toNat
    let padded := List.replicate (places + 1 - text.length) '0' ++ text
    let whole := padded.length - places
    String.ofList (padded.take whole ++ '.' :: padded.drop whole)

/-- A number that is not one has no sign. -/
def plain (x : Float) : String :=
  if x.isNaN then "NaN"
  else
    let sign := if isNegative x then "-" else ""
    let magnitude :=
      if x.isInf then "inf"
      else if x == 0 then "0"
      else (Binary.ofFloat x).shortest.plain
    sign ++ magnitude

end FeatureTable.Decimal
