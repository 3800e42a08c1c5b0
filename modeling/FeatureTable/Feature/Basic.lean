import FeatureTable.Expression.Basic

namespace FeatureTable

structure Definition where
  target : String
  expression : Expression
deriving Repr, DecidableEq

/-- What a feature table is made of: columns that are kept, a label, and derived columns in
order. -/
structure FeaturePlan where
  featureColumns : List String
  targetColumn : String
  definitions : List Definition
deriving Repr, DecidableEq

def FeaturePlan.inputColumns (plan : FeaturePlan) : List String :=
  plan.featureColumns ++ [plan.targetColumn]

end FeatureTable
