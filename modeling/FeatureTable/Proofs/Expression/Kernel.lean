import FeatureTable.Proofs.Decimal.Whole

namespace FeatureTable

def Operator.valueAt? : Operator → Float → Float → Option Float
  | .apply, _, _ => none
  | .multiply, x, y => some (x * y)
  | .subtract, x, y => some (x - y)
  | .divide, x, y => some (x / y)
  | .add, x, y => some (x + y)

/-- One with the sign of the number.  Zero stays zero, without a sign. -/
def signum (x : Float) : Float :=
  match x.toModel.unpack with
  | .notANumber => 0 / 0
  | .zero _ => 0
  | .infinity .positive | .finite .positive _ _ _ => 1
  | .infinity .negative | .finite .negative _ _ _ => -1

def Transform.valueAt : Transform → Float → Float
  | .square, x => x * x
  | .sqrt, x => Float.sqrt x
  | .cbrt, x => Float.cbrt x
  | .exp, x => Float.exp x
  | .expm1, x =>
      -- The quotient makes up for the digits that the difference loses near zero.
      if Float.exp x == 1 then x
      else if Float.abs x < 1 then (Float.exp x - 1) * x / Float.log (Float.exp x)
      else Float.exp x - 1
  | .log, x => Float.log x
  | .log2, x => Float.log2 x
  | .log10, x => Float.log10 x
  | .log1p, x =>
      if 1 + x == 1 then x
      else if Float.abs x < 1 then Float.log (1 + x) * x / (1 + x - 1)
      else Float.log (1 + x)
  | .abs, x => Float.abs x
  | .negative, x => -x
  | .reciprocal, x => 1 / x
  | .sign, x => signum x
  | .floor, x => Float.floor x
  | .ceil, x => Float.ceil x
  | .rint, x => Decimal.nearestWhole x
  | .trunc, x => if x < 0 then Float.ceil x else Float.floor x
  | .sin, x => Float.sin x
  | .cos, x => Float.cos x
  | .tan, x => Float.tan x
  | .tanh, x => Float.tanh x

theorem Arithmetic.run_eq_valueAt? {operator : Operator} {op : Arithmetic}
    (h : operator.arithmetic? = some op) (x y : Float) :
    operator.valueAt? x y = some (op.run x y) := by
  cases operator <;> cases h <;> rfl

theorem signOf_eq_signum (x : Float) : signOf x = signum x := by
  cases hx : x.toModel.unpack with
  | notANumber =>
      rw [Decimal.eq_ofUnpacked hx]
      decide +kernel
  | infinity s =>
      rw [Decimal.eq_ofUnpacked hx]
      cases s <;> decide +kernel
  | zero s =>
      rw [Decimal.eq_ofUnpacked hx]
      cases s <;> decide +kernel
  | finite s m e h =>
      cases s <;> simp [signOf, signum, hx, Decimal.zero_lt_iff hx, Decimal.lt_zero_iff hx]

theorem Transform.run_eq_valueAt (f : Transform) (x : Float) : f.run x = f.valueAt x := by
  cases f with
  | sign => exact signOf_eq_signum x
  | rint => exact Decimal.toEven_eq_nearestWhole x
  | square | sqrt | cbrt | exp | expm1 | log | log2 | log10 | log1p | abs | negative | reciprocal
  | floor | ceil | trunc | sin | cos | tan | tanh => rfl

end FeatureTable
