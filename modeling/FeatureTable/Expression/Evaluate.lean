import FeatureTable.Expression.Basic
import FeatureTable.Expression.Kernel
import FeatureTable.Table.Basic
import FeatureTable.Traced

namespace FeatureTable

inductive EvalError where
  | missingColumn (name : String)
  | missingOperand (operator : Operator)
  | missingFunction
  | lengthMismatch (left right : Nat)
deriving Repr, DecidableEq

def EvalError.message : EvalError → String
  | .missingColumn name => s!"Column not found: {name}"
  | .missingOperand operator => s!"Missing second operand for '{operator.name}'"
  | .missingFunction => "Unknown function: apply requires a function"
  | .lengthMismatch left right => s!"Operand length mismatch: {left} vs {right}"

namespace Expression

def columnOf (t : Table) (name : String) : Except EvalError Column :=
  match t.column? name with
  | some values => .ok values
  | none => .error (.missingColumn name)

def combine (op : Arithmetic) (left right : Column) : Except EvalError Column :=
  if left.length = right.length then .ok (List.zipWith op.run left right)
  else .error (.lengthMismatch left.length right.length)

def finish (operator : Operator) (left : Column) (right : Option Column)
    (function : Option Transform) : Except EvalError Column :=
  match operator.arithmetic?, right, function with
  | some op, some right, _ => combine op left right
  | some _, none, _ => .error (.missingOperand operator)
  | none, _, some f => .ok (left.map f.run)
  | none, _, none => .error .missingFunction

/-- A second operand that needs an absent column counts as absent itself. -/
def secondOperand (operator : Operator) (operand : Traced EvalError Column) :
    Traced EvalError (Option Column) :=
  (some <$> operand).recover fun e =>
    match e with
    | .missingColumn name => do
        Traced.record .debug
          (s!"Second operand of '{operator.name}' unresolved (column '{name}' not found), " ++
            "continuing with first operand only")
        return none
    | e => Traced.fail e

/-- `apply` never looks at a second operand. -/
def evaluate (t : Table) : Expression → Traced EvalError Column
  | .column name => Traced.ofExcept (columnOf t name)
  | .overOne operator source function => do
      let left ← evaluate t source
      Traced.ofExcept (finish operator left none function)
  | .overTwo operator source₁ source₂ function => do
      let left ← evaluate t source₁
      let right ←
        if operator.isBinary then secondOperand operator (evaluate t source₂) else pure none
      Traced.ofExcept (finish operator left right function)

end Expression

end FeatureTable
