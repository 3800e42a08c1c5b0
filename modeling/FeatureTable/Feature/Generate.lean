import FeatureTable.Failure
import FeatureTable.Feature.OfYaml

namespace FeatureTable

open Yaml (Value)

/-- How far a list of definitions got: the table at the first failure, and the failure. -/
structure Interrupted where
  table : Table
  failure : Failure
deriving Repr

def Definition.apply (d : Definition) (t : Table) : Traced Failure Table := do
  let column ← (d.expression.evaluate t).mapError .evaluation
  (Traced.ofExcept (t.insert d.target column)).mapError .ofTableError

def Definition.failureMessage (d : Definition) (failure : Failure) : String :=
  let operation := (d.expression.operator?.map Operator.name).getD "column"
  s!"Feature {d.target} ({operation}) could not be created due to {failure.message}. " ++
    "Please check the formatting of config.yaml"

/-- Every result is put on the table before the next definition is evaluated. -/
def applyDefinitions (t : Table) : List Definition → Traced Interrupted Table
  | [] => pure t
  | d :: definitions => do
      let next ← (d.apply t).recover fun failure => do
        Traced.record .error (d.failureMessage failure)
        Traced.fail ⟨t, failure⟩
      Traced.record .info s!"Feature {d.target} created."
      applyDefinitions next definitions

def generateFrom (t : Table) (columns : List String) (definitions : List Definition) :
    Traced Failure Table := do
  let selected ← (Traced.ofExcept (t.select columns)).mapError .ofTableError
  (applyDefinitions selected definitions).mapError Interrupted.failure

def generate (t : Table) (featureColumns : List String) (targetColumn : String)
    (definitions : List Definition) : Traced Failure Table :=
  generateFrom t (featureColumns ++ [targetColumn]) definitions

def FeaturePlan.generate (plan : FeaturePlan) (t : Table) : Traced Failure Table :=
  generateFrom t plan.inputColumns plan.definitions

/-- A plan that cannot be read is reported before anything is evaluated. -/
def generateFromYaml (t : Table) (v : Value) : Traced Failure Table := do
  let plan ← (FeaturePlan.ofYaml v).mapError .config
  plan.generate t

end FeatureTable
