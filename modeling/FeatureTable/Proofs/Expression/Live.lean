import FeatureTable.Proofs.Expression.Rowwise

namespace FeatureTable.Expression

/-- A node of an expression outside the second operands of `apply`. -/
inductive Live : Expression → Expression → Prop
  | root (e : Expression) : Live e e
  | only {node source : Expression} (operator : Operator) (function : Option Transform)
      (h : Live node source) : Live node (overOne operator source function)
  | first {node source₁ : Expression} (operator : Operator) (source₂ : Expression)
      (function : Option Transform) (h : Live node source₁) :
      Live node (overTwo operator source₁ source₂ function)
  | second {node source₂ : Expression} {operator : Operator} (hoperator : operator ≠ .apply)
      (source₁ : Expression) (function : Option Transform) (h : Live node source₂) :
      Live node (overTwo operator source₁ source₂ function)

theorem forall_live_column {P : Expression → Prop} {name : String} :
    (∀ node, Live node (column name) → P node) ↔ P (column name) := by
  constructor
  · exact fun h => h _ (.root _)
  · intro h node hnode
    cases hnode
    exact h

theorem forall_live_overOne {P : Expression → Prop} {operator : Operator} {source : Expression}
    {function : Option Transform} :
    (∀ node, Live node (overOne operator source function) → P node) ↔
      P (overOne operator source function) ∧ ∀ node, Live node source → P node := by
  constructor
  · exact fun h => ⟨h _ (.root _), fun node hnode => h node (.only operator function hnode)⟩
  · rintro ⟨hroot, hsource⟩ node hnode
    cases hnode with
    | root => exact hroot
    | only _ _ hnode => exact hsource node hnode

theorem forall_live_overTwo {P : Expression → Prop} {operator : Operator}
    {source₁ source₂ : Expression} {function : Option Transform} :
    (∀ node, Live node (overTwo operator source₁ source₂ function) → P node) ↔
      P (overTwo operator source₁ source₂ function) ∧ (∀ node, Live node source₁ → P node) ∧
        (operator ≠ .apply → ∀ node, Live node source₂ → P node) := by
  constructor
  · intro h
    refine ⟨h _ (.root _), fun node hnode => h node (.first operator source₂ function hnode), ?_⟩
    exact fun hoperator node hnode => h node (.second hoperator source₁ function hnode)
  · rintro ⟨hroot, hfirst, hsecond⟩ node hnode
    cases hnode with
    | root => exact hroot
    | first _ _ _ hnode => exact hfirst node hnode
    | second hoperator _ _ hnode => exact hsecond hoperator node hnode

def source₂? : Expression → Option Expression
  | .overTwo _ _ source₂ _ => some source₂
  | _ => none

def function? : Expression → Option Transform
  | .column _ => none
  | .overOne _ _ function => function
  | .overTwo _ _ _ function => function

/-- A node that has what its kind needs. -/
structure Complete (t : Table) (node : Expression) : Prop where
  reference : ∀ name, node = column name → name ∈ t.names
  operand : ∀ operator, node.operator? = some operator → operator ≠ .apply →
    ∃ source₂, node.source₂? = some source₂
  transform : node.operator? = some .apply → ∃ f, node.function? = some f

theorem complete_column {t : Table} {name : String} :
    Complete t (column name) ↔ name ∈ t.names := by
  constructor
  · exact fun h => h.reference name rfl
  · intro hname
    refine ⟨?_, fun _ h => (by cases h), fun h => (by cases h)⟩
    intro other heq
    cases heq
    exact hname

theorem complete_overOne {t : Table} {operator : Operator} {source : Expression}
    {function : Option Transform} :
    Complete t (overOne operator source function) ↔
      operator = .apply ∧ ∃ f, function = some f := by
  constructor
  · intro h
    have hoperator : operator = .apply := by
      by_contra hne
      obtain ⟨source₂, hsource₂⟩ := h.operand operator rfl hne
      cases hsource₂
    exact ⟨hoperator, h.transform (congrArg some hoperator)⟩
  · rintro ⟨rfl, hfunction⟩
    refine ⟨fun _ heq => (by cases heq), ?_, fun _ => hfunction⟩
    intro operator heq hne
    exact absurd (Option.some.inj heq).symm hne

theorem complete_overTwo {t : Table} {operator : Operator} {source₁ source₂ : Expression}
    {function : Option Transform} :
    Complete t (overTwo operator source₁ source₂ function) ↔
      (operator = .apply → ∃ f, function = some f) := by
  constructor
  · exact fun h hoperator => h.transform (congrArg some hoperator)
  · intro h
    refine ⟨fun _ heq => (by cases heq), fun _ _ _ => ⟨source₂, rfl⟩, ?_⟩
    exact fun heq => h (Option.some.inj heq)

theorem fault?_eq_none_iff {t : Table} {e : Expression} :
    e.fault? t.contains = none ↔ ∀ node, Live node e → Complete t node := by
  induction e with
  | column name =>
      rw [forall_live_column, complete_column, fault?, ← Table.contains_iff]
      cases t.contains name <;> simp
  | overOne operator source function ih =>
      rw [forall_live_overOne, complete_overOne, fault?, Option.or_eq_none_iff, ih, and_comm]
      apply and_congr_left'
      cases operator <;> cases function <;> simp [Operator.isBinary, Operator.arithmetic?]
  | overTwo operator source₁ source₂ function ih₁ ih₂ =>
      rw [forall_live_overTwo, complete_overTwo, fault?, Option.or_eq_none_iff, ih₁]
      by_cases hoperator : operator = .apply
      · subst hoperator
        cases function <;> simp [Operator.isBinary, Operator.arithmetic?]
      · rw [if_pos (Operator.isBinary_iff.mpr hoperator), Option.map_eq_none_iff, ih₂]
        simp [hoperator]

/-- Expressions that differ only in second operands of `apply` and in functions of other
operators. -/
inductive SameLive : Expression → Expression → Prop
  | column (name : String) : SameLive (column name) (column name)
  | apply {left right : Expression} (h : SameLive left right)
      (leftSecond rightSecond : Option Expression) (function : Option Transform) :
      SameLive (operation .apply left leftSecond function)
        (operation .apply right rightSecond function)
  | overOne {operator : Operator} (hoperator : operator ≠ .apply) {left right : Expression}
      (h : SameLive left right) (leftFunction rightFunction : Option Transform) :
      SameLive (overOne operator left leftFunction) (overOne operator right rightFunction)
  | overTwo {operator : Operator} (hoperator : operator ≠ .apply)
      {left₁ right₁ left₂ right₂ : Expression} (h₁ : SameLive left₁ right₁)
      (h₂ : SameLive left₂ right₂) (leftFunction rightFunction : Option Transform) :
      SameLive (overTwo operator left₁ left₂ leftFunction)
        (overTwo operator right₁ right₂ rightFunction)

theorem outcome_evaluate_operation_apply (t : Table) (source : Expression)
    (second : Option Expression) (function : Option Transform) :
    ((operation .apply source second function).evaluate t).outcome =
      (source.evaluate t).outcome >>= fun left => finish .apply left none function := by
  rw [← outcome_evaluate_overOne]
  cases second with
  | none => rfl
  | some source₂ => exact congrArg Traced.outcome (evaluate_apply_overTwo t source source₂ function)

theorem SameLive.outcome_evaluate {left right : Expression} (h : SameLive left right)
    (t : Table) : (left.evaluate t).outcome = (right.evaluate t).outcome := by
  induction h with
  | column name => rfl
  | apply h leftSecond rightSecond function ih =>
      rw [outcome_evaluate_operation_apply, outcome_evaluate_operation_apply, ih]
  | overOne hoperator h leftFunction rightFunction ih =>
      obtain ⟨op, harithmetic⟩ := Operator.exists_arithmetic? hoperator
      rw [outcome_evaluate_overOne_binary harithmetic,
        outcome_evaluate_overOne_binary harithmetic, ih]
  | overTwo hoperator h₁ h₂ leftFunction rightFunction ih₁ ih₂ =>
      obtain ⟨op, harithmetic⟩ := Operator.exists_arithmetic? hoperator
      rw [outcome_evaluate_overTwo harithmetic, outcome_evaluate_overTwo harithmetic, ih₁, ih₂]

theorem exists_outcome_evaluate_iff_complete {t : ValidTable} {e : Expression} :
    (∃ values, (e.evaluate t).outcome = .ok values) ↔ ∀ node, Live node e → Complete t node :=
  exists_outcome_evaluate_iff.trans fault?_eq_none_iff

theorem exists_second_operand {t : ValidTable} {e : Expression} {values : Column}
    (h : (e.evaluate t).outcome = .ok values) {operator : Operator}
    (hroot : e.operator? = some operator) (hoperator : operator ≠ .apply) :
    ∃ operand right, e.source₂? = some operand ∧ (operand.evaluate t).outcome = .ok right := by
  have hcomplete := exists_outcome_evaluate_iff_complete.mp ⟨values, h⟩
  obtain ⟨operand, hoperand⟩ := (hcomplete e (.root e)).operand operator hroot hoperator
  cases e with
  | column name => cases hroot
  | overOne => cases hoperand
  | overTwo other source₁ source₂ function =>
      cases hroot
      have hsecond := (forall_live_overTwo.mp hcomplete).2.2 hoperator
      obtain ⟨right, hright⟩ := exists_outcome_evaluate_iff_complete.mpr hsecond
      exact ⟨source₂, right, rfl, hright⟩

/-- Evaluation over columns is evaluation of each row alone: it succeeds exactly if every live node
is complete, and what no live node holds plays no part. -/
theorem outcome_evaluate_rowwise {t : Table} (ht : t.Valid) (e : Expression) :
    ((∃ values, (e.evaluate t).outcome = .ok values) ↔ ∀ node, Live node e → Complete t node) ∧
      (∀ values, (e.evaluate t).outcome = .ok values →
        values.length = t.height ∧
          ∀ index, index < t.height → ∃ x,
            (e.value? fun name => t.cell? name index) = some x ∧ values[index]? = some x) ∧
      (∀ values, (e.evaluate t).outcome = .ok values →
        ∀ operator, e.operator? = some operator → operator ≠ .apply →
          ∃ operand right,
            e.source₂? = some operand ∧ (operand.evaluate t).outcome = .ok right) ∧
      ∀ other, SameLive e other → (other.evaluate t).outcome = (e.evaluate t).outcome := by
  lift t to ValidTable using ht
  refine ⟨exists_outcome_evaluate_iff_complete, ?_, ?_, ?_⟩
  · intro values hvalues
    have hrows := tabulates_of_outcome hvalues
    refine ⟨hrows.length, fun index hindex => ?_⟩
    have hcell := List.getElem?_eq_getElem (hrows.length.symm ▸ hindex)
    exact ⟨_, (hrows.cells index).symm.trans hcell, hcell⟩
  · exact fun values hvalues operator hroot hoperator =>
      exists_second_operand hvalues hroot hoperator
  · exact fun other hother => (hother.outcome_evaluate t).symm

/-- A half is rounded to the even number, then divided by the magnitude of the other number. -/
def roundedQuotient : Expression :=
  overTwo .divide (overTwo .apply (column "a") (column "c") (some .rint))
    (overTwo .multiply (overOne .apply (column "b") (some .sign)) (column "b") (some .exp)) none

theorem outcome_evaluate_rowwise_two_rows :
    (Table.mk [("a", [1.5, 2.5]), ("b", [8, -4])]).Valid ∧
      ∃ values,
        (roundedQuotient.evaluate (Table.mk [("a", [1.5, 2.5]), ("b", [8, -4])])).outcome =
            .ok values ∧
          values.length = 2 ∧ values[0]? = some 0.25 ∧ values[1]? = some 0.5 := by
  have hvalid : (Table.mk [("a", [1.5, 2.5]), ("b", [8, -4])]).Valid := ⟨by decide, by decide⟩
  obtain ⟨-, hrows, -, -⟩ := outcome_evaluate_rowwise hvalid roundedQuotient
  obtain ⟨hlength, hcells⟩ := hrows _ rfl
  obtain ⟨x, hx, hfirst⟩ := hcells 0 (by decide)
  obtain ⟨y, hy, hsecond⟩ := hcells 1 (by decide)
  have hquarter : some x = some 0.25 := by
    rw [← hx]
    decide +kernel
  have hhalf : some y = some 0.5 := by
    rw [← hy]
    decide +kernel
  exact ⟨hvalid, _, rfl, hlength, hfirst.trans hquarter, hsecond.trans hhalf⟩

end FeatureTable.Expression
