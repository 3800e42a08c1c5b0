namespace FeatureTable

inductive Arithmetic where
  | multiply
  | subtract
  | divide
  | add
deriving Repr, DecidableEq

inductive Operator where
  | apply
  | multiply
  | subtract
  | divide
  | add
deriving Repr, DecidableEq

namespace Operator

def name : Operator → String
  | apply => "apply"
  | multiply => "multiply"
  | subtract => "subtract"
  | divide => "divide"
  | add => "add"

def ofName? : String → Option Operator
  | "apply" => some apply
  | "multiply" => some multiply
  | "subtract" => some subtract
  | "divide" => some divide
  | "add" => some add
  | _ => none

def arithmetic? : Operator → Option Arithmetic
  | apply => none
  | multiply => some .multiply
  | subtract => some .subtract
  | divide => some .divide
  | add => some .add

/-- Does the operator need a second operand? -/
def isBinary (op : Operator) : Bool :=
  op.arithmetic?.isSome

@[simp] theorem ofName?_name (op : Operator) : ofName? op.name = some op := by
  cases op <;> rfl

theorem name_of_ofName? {name : String} {op : Operator} (h : ofName? name = some op) :
    op.name = name := by
  unfold ofName? at h
  split at h <;> first | (cases h; rfl) | cases h

end Operator

inductive Transform where
  | square
  | sqrt
  | cbrt
  | exp
  | expm1
  | log
  | log2
  | log10
  | log1p
  | abs
  | negative
  | reciprocal
  | sign
  | floor
  | ceil
  | rint
  | trunc
  | sin
  | cos
  | tan
  | tanh
deriving Repr, DecidableEq

namespace Transform

def name : Transform → String
  | square => "square"
  | sqrt => "sqrt"
  | cbrt => "cbrt"
  | exp => "exp"
  | expm1 => "expm1"
  | log => "log"
  | log2 => "log2"
  | log10 => "log10"
  | log1p => "log1p"
  | abs => "abs"
  | negative => "negative"
  | reciprocal => "reciprocal"
  | sign => "sign"
  | floor => "floor"
  | ceil => "ceil"
  | rint => "rint"
  | trunc => "trunc"
  | sin => "sin"
  | cos => "cos"
  | tan => "tan"
  | tanh => "tanh"

def ofCanonicalName? : String → Option Transform
  | "square" => some square
  | "sqrt" => some sqrt
  | "cbrt" => some cbrt
  | "exp" => some exp
  | "expm1" => some expm1
  | "log" => some log
  | "log2" => some log2
  | "log10" => some log10
  | "log1p" => some log1p
  | "abs" => some abs
  | "negative" => some negative
  | "reciprocal" => some reciprocal
  | "sign" => some sign
  | "floor" => some floor
  | "ceil" => some ceil
  | "rint" => some rint
  | "trunc" => some trunc
  | "sin" => some sin
  | "cos" => some cos
  | "tan" => some tan
  | "tanh" => some tanh
  | _ => none

/-- A configuration may also call `abs` by two other names. -/
def ofName? (name : String) : Option Transform :=
  if name = "absolute" ∨ name = "fabs" then some abs else ofCanonicalName? name

@[simp] theorem ofCanonicalName?_name (f : Transform) : ofCanonicalName? f.name = some f := by
  cases f <;> rfl

theorem name_of_ofCanonicalName? {name : String} {f : Transform}
    (h : ofCanonicalName? name = some f) : f.name = name := by
  unfold ofCanonicalName? at h
  split at h <;> first | (cases h; rfl) | cases h

@[simp] theorem ofName?_name (f : Transform) : ofName? f.name = some f := by
  cases f <;> rfl

end Transform

end FeatureTable
