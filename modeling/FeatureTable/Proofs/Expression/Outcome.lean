import FeatureTable.Expression.Evaluate

namespace FeatureTable

theorem Operator.arithmetic?_eq_none_iff {operator : Operator} :
    operator.arithmetic? = none ↔ operator = .apply := by
  cases operator <;> simp [Operator.arithmetic?]

theorem Operator.exists_arithmetic? {operator : Operator} (h : operator ≠ .apply) :
    ∃ op, operator.arithmetic? = some op := by
  cases harithmetic : operator.arithmetic? with
  | none => exact absurd (arithmetic?_eq_none_iff.mp harithmetic) h
  | some op => exact ⟨op, rfl⟩

theorem Operator.isBinary_iff {operator : Operator} :
    operator.isBinary = true ↔ operator ≠ .apply := by
  cases operator <;> decide

theorem Operator.isBinary_of_arithmetic? {operator : Operator} {op : Arithmetic}
    (h : operator.arithmetic? = some op) : operator.isBinary = true := by
  rw [Operator.isBinary, h]
  rfl

namespace Expression

/-! What an evaluation gives, without the events it records.  A column that the second operand of an
operation lacks is a missing operand of the operation. -/

def asOperandFault (operator : Operator) : EvalError → EvalError
  | .missingColumn _ => .missingOperand operator
  | fault => fault

@[simp] theorem outcome_evaluate_column (t : Table) (name : String) :
    ((column name).evaluate t).outcome = columnOf t name := rfl

theorem outcome_evaluate_overOne (t : Table) (operator : Operator) (source : Expression)
    (function : Option Transform) :
    ((overOne operator source function).evaluate t).outcome =
      (source.evaluate t).outcome >>= fun left => finish operator left none function := by
  simp only [evaluate, Traced.outcome_bind, Traced.outcome_ofExcept]

theorem outcome_secondOperand (operator : Operator) (operand : Traced EvalError Column) :
    (secondOperand operator operand).outcome =
      match operand.outcome with
      | .ok values => .ok (some values)
      | .error (.missingColumn _) => .ok none
      | .error fault => .error fault := by
  unfold secondOperand
  rw [Traced.outcome_recover, Traced.outcome_map]
  cases operand.outcome with
  | ok values => rfl
  | error fault => cases fault <;> rfl

/-- `apply` records the same events with and without a second operand. -/
theorem evaluate_apply_overTwo (t : Table) (source₁ source₂ : Expression)
    (function : Option Transform) :
    (overTwo .apply source₁ source₂ function).evaluate t =
      (overOne .apply source₁ function).evaluate t := by
  simp [evaluate, Operator.isBinary, Operator.arithmetic?]

theorem outcome_evaluate_overTwo {operator : Operator} {op : Arithmetic}
    (h : operator.arithmetic? = some op) (t : Table) (source₁ source₂ : Expression)
    (function : Option Transform) :
    ((overTwo operator source₁ source₂ function).evaluate t).outcome =
      (source₁.evaluate t).outcome >>= fun left =>
        ((source₂.evaluate t).outcome.mapError (asOperandFault operator)) >>= fun right =>
          combine op left right := by
  have hbinary : operator.isBinary = true := Operator.isBinary_of_arithmetic? h
  simp only [evaluate, hbinary, if_true, Traced.outcome_bind, Traced.outcome_ofExcept,
    outcome_secondOperand]
  congr 1
  funext left
  cases (source₂.evaluate t).outcome with
  | ok right =>
      show finish operator left (some right) function = combine op left right
      simp only [finish, h]
  | error fault =>
      cases fault with
      | missingColumn name =>
          show finish operator left none function = .error (.missingOperand operator)
          simp only [finish, h]
      | missingOperand | missingFunction | lengthMismatch => rfl

theorem outcome_evaluate_overOne_binary {operator : Operator} {op : Arithmetic}
    (h : operator.arithmetic? = some op) (t : Table) (source : Expression)
    (function : Option Transform) :
    ((overOne operator source function).evaluate t).outcome =
      (source.evaluate t).outcome >>= fun _ => .error (.missingOperand operator) := by
  rw [outcome_evaluate_overOne]
  congr 1
  funext left
  simp only [finish, h]

theorem outcome_evaluate_overOne_apply (t : Table) (source : Expression) (f : Transform) :
    ((overOne .apply source (some f)).evaluate t).outcome =
      (source.evaluate t).outcome >>= fun left => .ok (left.map f.run) :=
  outcome_evaluate_overOne t .apply source (some f)

theorem outcome_evaluate_overOne_none (t : Table) (source : Expression) :
    ((overOne .apply source none).evaluate t).outcome =
      (source.evaluate t).outcome >>= fun _ => .error .missingFunction :=
  outcome_evaluate_overOne t .apply source none

end Expression

end FeatureTable
