import FeatureTable.Expression.OfYaml
import FeatureTable.Feature.Basic
import FeatureTable.Text.Blank

namespace FeatureTable

open Yaml (Value)

def Definition.ofYaml (v : Value) : Traced ConfigError Definition := do
  if v.entries?.isNone then Traced.fail (Config.mismatch "feature_eng" .mapping v)
  let target ← Traced.ofExcept (Config.getString v "target")
  if Text.isAllBlank target then Traced.fail .blankTarget
  let expression ← (Expression.readOperation v).recover fun e => do
    Traced.record .error s!"Feature {target} could not be parsed: {e.message}"
    Traced.fail e
  return { target, expression }

namespace FeaturePlan

def fields : List String :=
  ["feature_col", "target_col", "feature_eng"]

/-- The shape of the plan is checked before any definition. -/
def ofYaml (v : Value) : Traced ConfigError FeaturePlan := do
  if v.entries?.isNone then Traced.fail (Config.mismatch "generate_features" .mapping v)
  warnUnknown v fields "generate_features"
  let featureColumns ← Traced.ofExcept (Config.getStrings v "feature_col")
  let targetColumn ← Traced.ofExcept (Config.getString v "target_col")
  let items ← Traced.ofExcept (Config.getList v "feature_eng")
  let definitions ← items.mapM Definition.ofYaml
  return { featureColumns, targetColumn, definitions }

end FeaturePlan

end FeatureTable
