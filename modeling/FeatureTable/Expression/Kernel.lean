import FeatureTable.Operator

namespace FeatureTable

/-!
The value of one cell.  Nothing here fails: division by zero and arguments outside the domain of a
function give infinities or the value that is not a number.
-/

def Arithmetic.run : Arithmetic → Float → Float → Float
  | multiply, x, y => x * y
  | subtract, x, y => x - y
  | divide, x, y => x / y
  | add, x, y => x + y

/-- `exp x - 1` without the cancellation near zero. -/
def expMinusOne (x : Float) : Float :=
  let y := Float.exp x
  if y == 1 then x
  else if x.abs < 1 then (y - 1) * x / Float.log y
  else y - 1

def logOnePlus (x : Float) : Float :=
  let y := 1 + x
  if y == 1 then x
  else if x.abs < 1 then Float.log y * x / (y - 1)
  else Float.log y

/-- Both zeros have sign zero. -/
def signOf (x : Float) : Float :=
  if 0 < x then 1
  else if x < 0 then -1
  else if x == 0 then 0
  else 0 / 0

def towardZero (x : Float) : Float :=
  if x < 0 then x.ceil else x.floor

/-- The nearest whole number; a half goes to the even neighbour.  From `2 ^ 52` on every number is
whole, and adding `2 ^ 52` to a smaller one rounds it. -/
def toEven (x : Float) : Float :=
  if x == 0 then x
  else if 0 < x && x < 4503599627370496 then x + 4503599627370496 - 4503599627370496
  else if x < 0 && -4503599627370496 < x then -(-x + 4503599627370496 - 4503599627370496)
  else x

def Transform.run : Transform → Float → Float
  | square, x => x * x
  | sqrt, x => x.sqrt
  | cbrt, x => x.cbrt
  | exp, x => x.exp
  | expm1, x => expMinusOne x
  | log, x => x.log
  | log2, x => x.log2
  | log10, x => x.log10
  | log1p, x => logOnePlus x
  | abs, x => x.abs
  | negative, x => -x
  | reciprocal, x => 1 / x
  | sign, x => signOf x
  | floor, x => x.floor
  | ceil, x => x.ceil
  | rint, x => toEven x
  | trunc, x => towardZero x
  | sin, x => x.sin
  | cos, x => x.cos
  | tan, x => x.tan
  | tanh, x => x.tanh

end FeatureTable
