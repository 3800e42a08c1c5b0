import FeatureTable.Operator

namespace FeatureTable

/-- How a column is computed.  An operation stands over one or over two operands; which of the
operands and whether the function are used depends on the operator, so the tree also holds
operations that cannot be evaluated. -/
inductive Expression where
  | column (name : String)
  | overOne (operator : Operator) (source : Expression) (function : Option Transform)
  | overTwo (operator : Operator) (source₁ source₂ : Expression) (function : Option Transform)
deriving Repr, DecidableEq, Inhabited

namespace Expression

def operation (operator : Operator) (source₁ : Expression) (source₂ : Option Expression)
    (function : Option Transform) : Expression :=
  match source₂ with
  | none => .overOne operator source₁ function
  | some source₂ => .overTwo operator source₁ source₂ function

def operator? : Expression → Option Operator
  | .column _ => none
  | .overOne operator _ _ => some operator
  | .overTwo operator _ _ _ => some operator

end Expression

end FeatureTable
