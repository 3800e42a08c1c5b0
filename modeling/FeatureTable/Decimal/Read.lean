namespace FeatureTable.Decimal

/-!
A number is read from an optional sign followed by `inf`, `infinity` or `nan` in any case, or by
digits with an optional point among, before or after them and an optional power of ten.
-/

def digitsValue (digits : List Char) : Nat :=
  digits.foldl (fun value c => 10 * value + (c.toNat - '0'.toNat)) 0

def splitDigits (cs : List Char) : List Char × List Char :=
  (cs.takeWhile Char.isDigit, cs.dropWhile Char.isDigit)

def splitSign : List Char → Bool × List Char
  | '-' :: cs => (true, cs)
  | '+' :: cs => (false, cs)
  | cs => (false, cs)

/-- The power of ten that ends a number; absent, it is zero. -/
def readPower? : List Char → Option Int
  | [] => some 0
  | mark :: cs =>
      let (negative, digits) := splitSign cs
      if (mark = 'e' || mark = 'E') && !digits.isEmpty && digits.all Char.isDigit then
        some (if negative then -(digitsValue digits : Int) else digitsValue digits)
      else none

/-- The float nearest to `digits * 10 ^ power`.  Outside the bounds below every number is beyond
the largest float or below half the smallest. -/
def nearest (digits : Nat) (power : Int) : Float :=
  if digits = 0 then 0
  else
    let size : Int := power + (digits.log2 : Int) * 30103 / 100000
    if 320 < size then 1 / 0
    else if size < -340 then 0
    else Float.ofScientific digits (power < 0) power.natAbs

def readMagnitude? (cs : List Char) : Option Float :=
  let (whole, rest) := splitDigits cs
  let (fraction, rest) :=
    match rest with
    | '.' :: cs => splitDigits cs
    | _ => ([], rest)
  if whole.isEmpty && fraction.isEmpty then none
  else (readPower? rest).map fun power =>
    nearest (digitsValue (whole ++ fraction)) (power - fraction.length)

def readName? (cs : List Char) : Option Float :=
  let name := String.ofList (cs.map Char.toLower)
  if name = "inf" || name = "infinity" then some (1 / 0)
  else if name = "nan" then some (0 / 0)
  else none

def readChars? (cs : List Char) : Option Float :=
  let (negative, cs) := splitSign cs
  ((readName? cs).orElse fun _ => readMagnitude? cs).map fun x => if negative then -x else x

def read? (text : String) : Option Float :=
  readChars? text.toList

end FeatureTable.Decimal
