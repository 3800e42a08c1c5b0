import FeatureTable.Proofs.Expression.Rowwise

namespace FeatureTable.Expression

/-! Of many faults one is reported.  The column at the far left is looked up before anything else;
where it is there, the operations are checked in the order in which they are finished. -/

/-- The column that is reached through first operands alone. -/
def leftmost : Expression → String
  | .column name => name
  | .overOne _ source _ => source.leftmost
  | .overTwo _ source₁ _ _ => source₁.leftmost

def functionFaults : Option Transform → List EvalError
  | none => [.missingFunction]
  | some _ => []

/-- The faults of the operations in the order in which they are met.  Of a second operand whose
leftmost column is absent nothing else is looked at. -/
def operationFaults (present : String → Bool) : Expression → List EvalError
  | .column _ => []
  | .overOne operator source function =>
      source.operationFaults present ++
        if operator = .apply then functionFaults function else [.missingOperand operator]
  | .overTwo operator source₁ source₂ function =>
      source₁.operationFaults present ++
        if operator = .apply then functionFaults function
        else if present source₂.leftmost then source₂.operationFaults present
        else [.missingOperand operator]

variable {present : String → Bool} {e : Expression} {fault : EvalError}

theorem mem_functionFaults {function : Option Transform} (h : fault ∈ functionFaults function) :
    fault = .missingFunction := by
  cases function with
  | none => exact List.mem_singleton.mp h
  | some f => cases h

theorem cases_of_mem_operationFaults (h : fault ∈ e.operationFaults present) :
    fault = .missingFunction ∨
      ∃ operator, operator ≠ .apply ∧ fault = .missingOperand operator := by
  induction e with
  | column name => cases h
  | overOne operator source function ih =>
      rw [operationFaults, List.mem_append] at h
      rcases h with hsource | hown
      · exact ih hsource
      · split at hown
        · exact .inl (mem_functionFaults hown)
        · rename_i hoperator
          exact .inr ⟨operator, hoperator, List.mem_singleton.mp hown⟩
  | overTwo operator source₁ source₂ function ih₁ ih₂ =>
      rw [operationFaults, List.mem_append] at h
      rcases h with hsource₁ | hown
      · exact ih₁ hsource₁
      · split at hown
        · exact .inl (mem_functionFaults hown)
        · rename_i hoperator
          split at hown
          · exact ih₂ hown
          · exact .inr ⟨operator, hoperator, List.mem_singleton.mp hown⟩

/-- An operation passes on what its second operand reports, once the leftmost column is there. -/
theorem map_asOperandFault_head?_operationFaults (operator : Operator) :
    (e.operationFaults present).head?.map (asOperandFault operator) =
      (e.operationFaults present).head? := by
  cases hfaults : e.operationFaults present with
  | nil => rfl
  | cons first rest =>
      have hfirst : first ∈ e.operationFaults present := hfaults ▸ List.mem_cons_self
      rcases cases_of_mem_operationFaults hfirst with rfl | ⟨other, -, rfl⟩ <;> rfl

theorem head?_functionFaults (function : Option Transform) :
    (functionFaults function).head? =
      if function.isNone then some EvalError.missingFunction else none := by
  cases function <;> rfl

theorem fault?_eq_head? (present : String → Bool) (e : Expression) :
    e.fault? present =
      if present e.leftmost then (e.operationFaults present).head?
      else some (.missingColumn e.leftmost) := by
  induction e with
  | column name => rfl
  | overOne operator source function ih =>
      rw [fault?, ih, leftmost, operationFaults]
      split
      · rw [List.head?_append]
        congr 1
        by_cases hoperator : operator = .apply
        · subst hoperator
          exact (head?_functionFaults function).symm
        · rw [if_pos (Operator.isBinary_iff.mpr hoperator), if_neg hoperator]
          rfl
      · rfl
  | overTwo operator source₁ source₂ function ih₁ ih₂ =>
      rw [fault?, ih₁, leftmost, operationFaults]
      split
      · rw [List.head?_append]
        congr 1
        by_cases hoperator : operator = .apply
        · subst hoperator
          exact (head?_functionFaults function).symm
        · rw [if_pos (Operator.isBinary_iff.mpr hoperator), if_neg hoperator, ih₂]
          split
          · exact map_asOperandFault_head?_operationFaults operator
          · rfl
      · rfl

/-- Which of the faults of an expression is reported. -/
theorem outcome_evaluate_first_fault {t : Table} (ht : t.Valid) (e : Expression) :
    (∀ name, (e.evaluate t).outcome = .error (.missingColumn name) ↔
      e.leftmost = name ∧ name ∉ t.names) ∧
    (e.leftmost ∈ t.names → ∀ fault,
      (e.evaluate t).outcome = .error fault ↔
        (e.operationFaults t.contains).head? = some fault) ∧
    ∀ left right, (e.evaluate t).outcome ≠ .error (.lengthMismatch left right) := by
  lift t to ValidTable using ht
  have hoperation : ∀ fault, (e.operationFaults t.contains).head? = some fault →
      fault = .missingFunction ∨ ∃ operator, operator ≠ .apply ∧ fault = .missingOperand operator :=
    fun fault hfault => cases_of_mem_operationFaults (List.mem_of_mem_head? hfault)
  by_cases hleftmost : e.leftmost ∈ t.names
  · have houtcome : ∀ fault, (e.evaluate t).outcome = .error fault ↔
        (e.operationFaults t.contains).head? = some fault := by
      intro fault
      rw [outcome_evaluate_eq_error_iff, fault?_eq_head?,
        if_pos (Table.contains_iff.mpr hleftmost)]
    refine ⟨fun name => ?_, fun _ => houtcome, fun left right h => ?_⟩
    · constructor
      · intro h
        rcases hoperation _ ((houtcome _).mp h) with hfault | ⟨_, -, hfault⟩ <;> cases hfault
      · rintro ⟨rfl, habsent⟩
        exact absurd hleftmost habsent
    · rcases hoperation _ ((houtcome _).mp h) with hfault | ⟨_, -, hfault⟩ <;> cases hfault
  · have houtcome : (e.evaluate t).outcome = .error (.missingColumn e.leftmost) := by
      rw [outcome_evaluate_eq_error_iff, fault?_eq_head?,
        if_neg fun hcontains => hleftmost (Table.contains_iff.mp hcontains)]
    refine ⟨fun name => ?_, fun h => absurd h hleftmost, fun left right h => ?_⟩
    · constructor
      · intro h
        cases houtcome.symm.trans h
        exact ⟨rfl, hleftmost⟩
      · rintro ⟨rfl, -⟩
        exact houtcome
    · cases houtcome.symm.trans h

/-- The absent column `d` is hidden behind the operation next to it, which hides later faults. -/
theorem outcome_evaluate_first_fault_nested :
    (Table.mk [("a", [1, 2]), ("b", [3, 4])]).Valid ∧
      "a" ∈ (Table.mk [("a", [1, 2]), ("b", [3, 4])]).names ∧
      ((overOne .apply
        (overTwo .add (column "a")
          (overTwo .multiply (column "b")
            (overTwo .divide (overOne .apply (column "d") none) (column "a") none) none)
          none) none).evaluate
        (Table.mk [("a", [1, 2]), ("b", [3, 4])])).outcome =
      .error (.missingOperand .multiply) := by
  have ht : (Table.mk [("a", [1, 2]), ("b", [3, 4])]).Valid := ⟨by decide, by decide⟩
  exact ⟨ht, by decide, ((outcome_evaluate_first_fault ht _).2.1 (by decide) _).mpr (by decide)⟩

end FeatureTable.Expression
