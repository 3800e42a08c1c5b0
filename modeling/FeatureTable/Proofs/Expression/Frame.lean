import FeatureTable.Proofs.Expression.Live

namespace FeatureTable.Expression

/-! Evaluation looks at the columns that live references name, and at nothing else. -/

@[simp] theorem live_column_column {name other : String} :
    Live (column name) (column other) ↔ name = other := by
  constructor
  · intro h
    cases h
    rfl
  · rintro rfl
    exact .root _

@[simp] theorem live_column_overOne {name : String} {operator : Operator} {source : Expression}
    {function : Option Transform} :
    Live (column name) (overOne operator source function) ↔ Live (column name) source := by
  constructor
  · intro h
    cases h with
    | only _ _ h => exact h
  · exact .only operator function

@[simp] theorem live_column_overTwo {name : String} {operator : Operator}
    {source₁ source₂ : Expression} {function : Option Transform} :
    Live (column name) (overTwo operator source₁ source₂ function) ↔
      Live (column name) source₁ ∨ operator ≠ .apply ∧ Live (column name) source₂ := by
  constructor
  · intro h
    cases h with
    | first _ _ _ h => exact Or.inl h
    | second hoperator _ _ h => exact Or.inr ⟨hoperator, h⟩
  · rintro (h | ⟨hoperator, h⟩)
    · exact .first operator source₂ function h
    · exact .second hoperator source₁ function h

/-- Faults included: an expression cannot tell tables apart that agree on its live references. -/
theorem outcome_evaluate_congr {t u : Table} {e : Expression}
    (h : ∀ name, Live (column name) e → t.column? name = u.column? name) :
    (e.evaluate t).outcome = (e.evaluate u).outcome := by
  induction e with
  | column name =>
      rw [outcome_evaluate_column, outcome_evaluate_column, columnOf, columnOf,
        h name (live_column_column.mpr rfl)]
  | overOne operator source function ih =>
      rw [outcome_evaluate_overOne, outcome_evaluate_overOne]
      rw [ih fun name hname => h name (live_column_overOne.mpr hname)]
  | overTwo operator source₁ source₂ function ih₁ ih₂ =>
      have hfirst := ih₁ fun name hname => h name (live_column_overTwo.mpr (Or.inl hname))
      cases hoperator : operator.arithmetic? with
      | none =>
          rw [Operator.arithmetic?_eq_none_iff.mp hoperator, evaluate_apply_overTwo,
            evaluate_apply_overTwo, outcome_evaluate_overOne, outcome_evaluate_overOne, hfirst]
      | some op =>
          have hne : operator ≠ .apply :=
            Operator.isBinary_iff.mp (Operator.isBinary_of_arithmetic? hoperator)
          have hsecond :=
            ih₂ fun name hname => h name (live_column_overTwo.mpr (Or.inr ⟨hne, hname⟩))
          rw [outcome_evaluate_overTwo hoperator, outcome_evaluate_overTwo hoperator, hfirst,
            hsecond]

theorem outcome_evaluate_put_of_not_live {e : Expression} {name : String}
    (h : ¬ Live (column name) e) (t : Table) (values : Column) :
    (e.evaluate (t.put name values)).outcome = (e.evaluate t).outcome := by
  apply outcome_evaluate_congr
  intro other hother
  rw [Table.column?_put, if_neg]
  rintro rfl
  exact h hother

end FeatureTable.Expression
