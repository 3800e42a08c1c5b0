import FeatureTable.Proofs.Expression.Outcome

namespace FeatureTable.Expression

def substitute (σ : String → Expression) : Expression → Expression
  | .column name => σ name
  | .overOne operator source function => .overOne operator (source.substitute σ) function
  | .overTwo operator source₁ source₂ function =>
      .overTwo operator (source₁.substitute σ) (source₂.substitute σ) function

@[simp] theorem substitute_column (σ : String → Expression) (name : String) :
    (column name).substitute σ = σ name := rfl

@[simp] theorem substitute_overOne (σ : String → Expression) (operator : Operator)
    (source : Expression) (function : Option Transform) :
    (overOne operator source function).substitute σ =
      overOne operator (source.substitute σ) function := rfl

@[simp] theorem substitute_overTwo (σ : String → Expression) (operator : Operator)
    (source₁ source₂ : Expression) (function : Option Transform) :
    (overTwo operator source₁ source₂ function).substitute σ =
      overTwo operator (source₁.substitute σ) (source₂.substitute σ) function := rfl

/-- A table whose columns are the values of expressions over another one evaluates as the other one
does after substitution, faults included. -/
theorem outcome_evaluate_substitute {t u : Table} {σ : String → Expression}
    (hσ : ∀ name, columnOf u name = ((σ name).evaluate t).outcome) (e : Expression) :
    ((e.substitute σ).evaluate t).outcome = (e.evaluate u).outcome := by
  induction e with
  | column name => rw [substitute_column, outcome_evaluate_column, hσ]
  | overOne operator source function ih =>
      rw [substitute_overOne, outcome_evaluate_overOne, outcome_evaluate_overOne, ih]
  | overTwo operator source₁ source₂ function ih₁ ih₂ =>
      rw [substitute_overTwo]
      cases hoperator : operator.arithmetic? with
      | none =>
          rw [Operator.arithmetic?_eq_none_iff.mp hoperator, evaluate_apply_overTwo,
            evaluate_apply_overTwo, outcome_evaluate_overOne, outcome_evaluate_overOne, ih₁]
      | some op =>
          rw [outcome_evaluate_overTwo hoperator, outcome_evaluate_overTwo hoperator, ih₁, ih₂]

end FeatureTable.Expression
