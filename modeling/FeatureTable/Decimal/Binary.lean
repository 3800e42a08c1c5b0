namespace FeatureTable.Decimal

/-- A positive finite number is `mantissa * 2 ^ exponent`.  The numbers that round to it are those
between `(4 * mantissa - below) * 2 ^ (exponent - 2)` and `(4 * mantissa + 2) * 2 ^ (exponent - 2)`,
where `below` is 1 at a power of two, where the spacing changes, and 2 elsewhere.  The two ends
belong to the interval when the mantissa is even. -/
structure Binary where
  mantissa : Nat
  exponent : Int
  below : Nat
deriving Repr, DecidableEq

def isNegative (x : Float) : Bool :=
  x.toBits >>> 63 == 1

/-- The decomposition of the magnitude of a finite number. -/
def Binary.ofFloat (x : Float) : Binary :=
  let bits := x.toBits.toNat
  let biased : Nat := bits / Nat.pow 2 52 % Nat.pow 2 11
  let fraction : Nat := bits % Nat.pow 2 52
  if biased = 0 then ⟨fraction, -1074, 2⟩
  else
    ⟨Nat.pow 2 52 + fraction, (biased : Int) - 1075, if fraction = 0 ∧ 1 < biased then 1 else 2⟩

/-- A fraction of natural numbers times a power of ten, as one fraction. -/
structure Fraction where
  numerator : Nat
  denominator : Nat
deriving Repr, DecidableEq

def Fraction.scale (f : Fraction) (power : Int) : Fraction :=
  if 0 ≤ power then ⟨f.numerator * Nat.pow 10 power.toNat, f.denominator⟩
  else ⟨f.numerator, f.denominator * Nat.pow 10 (-power).toNat⟩

/-- `quarters` quarters of the unit of `b`. -/
def Binary.quarters (b : Binary) (quarters : Nat) : Fraction :=
  if 0 ≤ b.exponent then ⟨quarters * Nat.pow 2 b.exponent.toNat, 4⟩
  else ⟨quarters, 4 * Nat.pow 2 (-b.exponent).toNat⟩

def Binary.value (b : Binary) : Fraction :=
  b.quarters (4 * b.mantissa)

/-- A power of ten above the number and close to it. -/
def Binary.magnitude (b : Binary) : Int :=
  ((b.mantissa.log2 : Int) + b.exponent + 1) * 30103 / 100000 + 1

end FeatureTable.Decimal
