import FeatureTable.Proofs.Expression.Kernel
import FeatureTable.Proofs.Expression.Outcome
import FeatureTable.Proofs.Table.Rows

namespace FeatureTable.Expression

/-! Whether an expression has a column, and which fault it has otherwise, is settled by the names of
the columns.  The values of the column are settled row by row. -/

/-- The first fault, if `present` tells the names of the columns. -/
def fault? (present : String → Bool) : Expression → Option EvalError
  | .column name => if present name then none else some (.missingColumn name)
  | .overOne operator source function =>
      (source.fault? present).or <|
        if operator.isBinary then some (.missingOperand operator)
        else if function.isNone then some .missingFunction
        else none
  | .overTwo operator source₁ source₂ function =>
      (source₁.fault? present).or <|
        if operator.isBinary then (source₂.fault? present).map (asOperandFault operator)
        else if function.isNone then some .missingFunction
        else none

/-- The value at one row, if `row` gives the cells of the row. -/
def value? (row : String → Option Float) : Expression → Option Float
  | .column name => row name
  | .overOne .apply source function | .overTwo .apply source _ function =>
      (source.value? row).bind fun x => function.map fun f => f.valueAt x
  | .overOne _ _ _ => none
  | .overTwo operator source₁ source₂ _ =>
      (source₁.value? row).bind fun x => (source₂.value? row).bind fun y => operator.valueAt? x y

theorem value?_overTwo {operator : Operator} {op : Arithmetic}
    (hoperator : operator.arithmetic? = some op) (row : String → Option Float)
    (source₁ source₂ : Expression) (function : Option Transform) :
    (overTwo operator source₁ source₂ function).value? row =
      (source₁.value? row).bind fun x => (source₂.value? row).map fun y => op.run x y := by
  have hvalue : (overTwo operator source₁ source₂ function).value? row =
      (source₁.value? row).bind fun x =>
        (source₂.value? row).bind fun y => operator.valueAt? x y := by
    cases operator <;> cases hoperator <;> rfl
  simp only [hvalue, Arithmetic.run_eq_valueAt? hoperator, Option.map_eq_bind, Function.comp_def]

structure Tabulates (t : Table) (e : Expression) (values : Column) : Prop where
  length : values.length = t.height
  cells : ∀ index, values[index]? = e.value? fun name => t.cell? name index

inductive Settled (t : Table) (e : Expression) : Prop
  | fails (fault : EvalError) (hfault : e.fault? t.contains = some fault)
      (houtcome : (e.evaluate t).outcome = .error fault)
  | succeeds (values : Column) (hfault : e.fault? t.contains = none)
      (houtcome : (e.evaluate t).outcome = .ok values) (hvalues : Tabulates t e values)

theorem settled_column (t : ValidTable) (name : String) : Settled t (column name) := by
  by_cases hname : name ∈ t.names
  · obtain ⟨values, hvalues⟩ := Table.exists_column?_of_mem hname
    refine .succeeds values ?_ ?_ ⟨t.length_of_column? hvalues, ?_⟩
    · rw [fault?, if_pos (Table.contains_iff.mpr hname)]
    · rw [outcome_evaluate_column, columnOf, hvalues]
    · exact fun index => (Table.cell?_of_column? hvalues index).symm
  · refine .fails (.missingColumn name) ?_ ?_
    · rw [fault?, if_neg fun hcontains => hname (Table.contains_iff.mp hcontains)]
    · rw [outcome_evaluate_column, columnOf, Table.column?_eq_none_iff.mpr hname]

theorem Tabulates.transform {t : Table} {source : Expression} {values : Column}
    (h : Tabulates t source values) (f : Transform) :
    Tabulates t (overOne .apply source (some f)) (values.map f.run) where
  length := by rw [List.length_map, h.length]
  cells := by
    intro index
    rw [List.getElem?_map, h.cells, Option.map_eq_bind, value?]
    simp only [Option.map_some, ← f.run_eq_valueAt, Function.comp_def]

theorem Tabulates.combine {t : Table} {operator : Operator} {op : Arithmetic}
    (hoperator : operator.arithmetic? = some op) {source₁ source₂ : Expression}
    {left right : Column} (hleft : Tabulates t source₁ left) (hright : Tabulates t source₂ right)
    (function : Option Transform) :
    Tabulates t (overTwo operator source₁ source₂ function) (List.zipWith op.run left right) where
  length := by rw [List.length_zipWith, hleft.length, hright.length, Nat.min_self]
  cells := by
    intro index
    rw [List.getElem?_zipWith, hleft.cells, hright.cells, value?_overTwo hoperator]
    cases source₁.value? fun name => t.cell? name index with
    | none => rfl
    | some x => cases source₂.value? fun name => t.cell? name index <;> rfl

theorem Settled.ignore_second {t : Table} {source₁ : Expression} {function : Option Transform}
    (h : Settled t (overOne .apply source₁ function)) (source₂ : Expression) :
    Settled t (overTwo .apply source₁ source₂ function) := by
  cases h with
  | fails fault hfault houtcome =>
      exact .fails fault hfault (by rwa [evaluate_apply_overTwo])
  | succeeds values hfault houtcome hvalues =>
      exact .succeeds values hfault (by rwa [evaluate_apply_overTwo])
        ⟨hvalues.length, hvalues.cells⟩

theorem settled_apply {t : Table} {source : Expression} (h : Settled t source)
    (function : Option Transform) : Settled t (overOne .apply source function) := by
  cases h with
  | fails fault hfault houtcome =>
      refine .fails fault ?_ ?_
      · rw [fault?, hfault, Option.some_or]
      · rw [outcome_evaluate_overOne, houtcome]
        rfl
  | succeeds values hfault houtcome hvalues =>
      cases function with
      | none =>
          refine .fails .missingFunction ?_ ?_
          · rw [fault?, hfault]
            rfl
          · rw [outcome_evaluate_overOne_none, houtcome]
            rfl
      | some f =>
          refine .succeeds (values.map f.run) ?_ ?_ (hvalues.transform f)
          · rw [fault?, hfault]
            rfl
          · rw [outcome_evaluate_overOne_apply, houtcome]
            rfl

theorem settled_binary_overOne {t : Table} {operator : Operator} {op : Arithmetic}
    (hoperator : operator.arithmetic? = some op) {source : Expression} (h : Settled t source)
    (function : Option Transform) : Settled t (overOne operator source function) := by
  have hbinary : operator.isBinary = true := Operator.isBinary_of_arithmetic? hoperator
  cases h with
  | fails fault hfault houtcome =>
      refine .fails fault ?_ ?_
      · rw [fault?, hfault, Option.some_or]
      · rw [outcome_evaluate_overOne, houtcome]
        rfl
  | succeeds values hfault houtcome hvalues =>
      refine .fails (.missingOperand operator) ?_ ?_
      · rw [fault?, hfault, Option.none_or, if_pos hbinary]
      · rw [outcome_evaluate_overOne_binary hoperator, houtcome]
        rfl

theorem settled_binary_overTwo {t : Table} {operator : Operator} {op : Arithmetic}
    (hoperator : operator.arithmetic? = some op) {source₁ source₂ : Expression}
    (h₁ : Settled t source₁) (h₂ : Settled t source₂) (function : Option Transform) :
    Settled t (overTwo operator source₁ source₂ function) := by
  have hbinary : operator.isBinary = true := Operator.isBinary_of_arithmetic? hoperator
  cases h₁ with
  | fails fault hfault houtcome =>
      refine .fails fault ?_ ?_
      · rw [fault?, hfault, Option.some_or]
      · rw [outcome_evaluate_overTwo hoperator, houtcome]
        rfl
  | succeeds left hfault₁ houtcome₁ hleft =>
      cases h₂ with
      | fails fault hfault₂ houtcome₂ =>
          refine .fails (asOperandFault operator fault) ?_ ?_
          · rw [fault?, hfault₁, Option.none_or, if_pos hbinary, hfault₂]
            rfl
          · rw [outcome_evaluate_overTwo hoperator, houtcome₁, houtcome₂]
            rfl
      | succeeds right hfault₂ houtcome₂ hright =>
          -- The check of the lengths never fails: both columns are as long as the table.
          have hsame : left.length = right.length := hleft.length.trans hright.length.symm
          refine .succeeds (List.zipWith op.run left right) ?_ ?_
            (hleft.combine hoperator hright function)
          · rw [fault?, hfault₁, Option.none_or, if_pos hbinary, hfault₂]
            rfl
          · rw [outcome_evaluate_overTwo hoperator, houtcome₁, houtcome₂]
            exact if_pos hsame

theorem settled (t : ValidTable) (e : Expression) : Settled t e := by
  induction e with
  | column name => exact settled_column t name
  | overOne operator source function ih =>
      cases hoperator : operator.arithmetic? with
      | none =>
          rw [Operator.arithmetic?_eq_none_iff.mp hoperator]
          exact settled_apply ih function
      | some op => exact settled_binary_overOne hoperator ih function
  | overTwo operator source₁ source₂ function ih₁ ih₂ =>
      cases hoperator : operator.arithmetic? with
      | none =>
          rw [Operator.arithmetic?_eq_none_iff.mp hoperator]
          exact (settled_apply ih₁ function).ignore_second source₂
      | some op => exact settled_binary_overTwo hoperator ih₁ ih₂ function

theorem outcome_evaluate_eq_error_iff {t : ValidTable} {e : Expression}
    {fault : EvalError} :
    (e.evaluate t).outcome = .error fault ↔ e.fault? t.contains = some fault := by
  cases settled t e with
  | fails other hfault houtcome => simp [hfault, houtcome]
  | succeeds values hfault houtcome _ => simp [hfault, houtcome]

theorem exists_outcome_evaluate_iff {t : ValidTable} {e : Expression} :
    (∃ values, (e.evaluate t).outcome = .ok values) ↔ e.fault? t.contains = none := by
  cases settled t e with
  | fails other hfault houtcome => simp [hfault, houtcome]
  | succeeds values hfault houtcome _ => simp [hfault, houtcome]

theorem tabulates_of_outcome {t : ValidTable} {e : Expression} {values : Column}
    (h : (e.evaluate t).outcome = .ok values) : Tabulates t e values := by
  cases settled t e with
  | fails other _ houtcome =>
      rw [houtcome] at h
      cases h
  | succeeds other _ houtcome hvalues =>
      rw [houtcome] at h
      cases h
      exact hvalues

end FeatureTable.Expression
