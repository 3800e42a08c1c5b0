import FeatureTable.Config.Field
import FeatureTable.Config.UnknownField
import FeatureTable.Expression.Basic
import FeatureTable.Traced

namespace FeatureTable

open Yaml (Value)

def warnUnknown (v : Value) (known : List String) (context : String) : Traced ε Unit :=
  ⟨.ok (), (Config.unknownFields v known).map fun u => ⟨.warn, u.message context⟩⟩

@[simp] theorem outcome_warnUnknown (v : Value) (known : List String) (context : String) :
    (warnUnknown v known context : Traced ε Unit).outcome = .ok () := rfl

namespace Expression

/-- A definition is itself an operation, so it may have a target. -/
def operationFields : List String :=
  ["operation", "source1", "source2", "function", "target"]

def readOperator (name : String) : Traced ConfigError Operator :=
  match Operator.ofName? name with
  | some operator => pure operator
  | none => do
      Traced.record .error s!"Invalid operation {name} supplied."
      Traced.fail (.unsupportedOperator name)

def readFunctionName (name : String) : Except ConfigError Transform :=
  match Transform.ofName? name with
  | some f => .ok f
  | none => .error (.unknownFunction name)

/-- Only `apply` takes a function. -/
def readFunction (operator : Operator) (function : Option Value) :
    Traced ConfigError (Option Transform) :=
  match operator, function with
  | .apply, some (.string name) => some <$> Traced.ofExcept (readFunctionName name)
  | .apply, some other => Traced.fail (Config.mismatch "function" .string other)
  | .apply, none => Traced.fail (.missingField "function")
  | operator, some _ => do
      Traced.record .warn s!"Ignoring 'function' on '{operator.name}' operation"
      return none
  | _, none => return none

mutual

/-- Reads what stands under `field`: a column name or a nested operation. -/
def readOperand (field : String) (v : Value) : Traced ConfigError Expression :=
  match v with
  | .string name => pure (.column name)
  | .mapping entries => readOperation (.mapping entries)
  | other => Traced.fail (Config.mismatch field .operand other)
termination_by (sizeOf v, 1)

def readOperation (v : Value) : Traced ConfigError Expression := do
  let name ← Traced.ofExcept (Config.getString v "operation")
  let operator ← readOperator name
  warnUnknown v operationFields s!"'{name}' operation"
  let source₁ ← (match _first : v.field? "source1" with
    | none => Traced.fail (.missingField "source1")
    | some source => readOperand "source1" source)
  let source₂ ← (match _second : v.field? "source2" with
    | none => pure none
    | some source => some <$> readOperand "source2" source)
  let function ← readFunction operator (v.field? "function")
  return operation operator source₁ source₂ function
termination_by (sizeOf v, 0)
decreasing_by
  · exact Prod.Lex.left _ _ (Value.sizeOf_field?_lt _first)
  · exact Prod.Lex.left _ _ (Value.sizeOf_field?_lt _second)

end

def ofYaml (v : Value) : Traced ConfigError Expression :=
  readOperand "source1" v

end Expression

end FeatureTable
