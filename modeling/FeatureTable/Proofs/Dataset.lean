import FeatureTable.Proofs.Dataset.Row
import FeatureTable.Proofs.Table.OfRows

namespace FeatureTable

structure LineRange.Within (range : LineRange) (count : Nat) : Prop where
  nonempty : range.left < range.right
  inside : range.right ≤ count

theorem LineRange.within_iff {range : LineRange} {count : Nat} :
    range.Within count ↔ ¬ (range.right ≤ range.left ∨ count < range.right) := by
  rw [not_or, Nat.not_le, Nat.not_lt]
  exact ⟨fun h => ⟨h.nonempty, h.inside⟩, fun h => ⟨h.1, h.2⟩⟩

namespace Cloud

variable {range : LineRange} {lines : List (List String)} {columns : List String}

theorem getElem?_select {lines : List α} {index : Nat} (h : index < range.right - range.left) :
    (select range lines)[index]? = lines[range.left + index]? := by
  rw [select, List.getElem?_take_of_lt h, List.getElem?_drop]

def rangeFaults (c : Cloud) (count : Nat) : List Failure :=
  if c.range.right ≤ c.range.left ∨ count < c.range.right then
    [.data (.cloudRange c.name c.range.left c.range.right count)]
  else []

theorem rangeFaults_eq_nil_iff {c : Cloud} {count : Nat} :
    c.rangeFaults count = [] ↔ c.range.Within count := by
  rw [rangeFaults, LineRange.within_iff, ite_eq_right_iff]
  simp

def faults (c : Cloud) (columns : List String) (lines : List (List String)) : List Failure :=
  c.rangeFaults lines.length ++
    (rowFaults columns.length c.range.left (select c.range lines) ++
      (Table.repeatFaults (columns ++ [classColumn])).map .ofTableError)

/-- A table is made of the rows of the lines that the cloud selects. -/
structure IsTable (c : Cloud) (columns : List String) (lines : List (List String))
    (rows : List (List Float)) (t : Table) : Prop where
  within : c.range.Within lines.length
  isRows : List.Forall₂ (IsRow columns.length c.label) (select c.range lines) rows
  ofRows : Table.ofRows (columns ++ [classColumn]) rows = .ok t

@[simp] theorem outcome_warnBoundary (c : Cloud) (width line : Nat) (tokens : List String) :
    (c.warnBoundary width line tokens : Traced ε Unit).outcome = .ok () := by
  unfold warnBoundary
  split <;> rfl

theorem outcome_toTable {c : Cloud} (columns : List String) {lines : List (List String)}
    (h : c.range.Within lines.length) :
    (c.toTable columns lines).outcome =
      (readRows columns.length c.label c.range.left (select c.range lines)).outcome >>= fun rows =>
        (Table.ofRows (columns ++ [classColumn]) rows).mapError Failure.ofTableError := by
  rw [toTable, if_neg (LineRange.within_iff.mp h)]
  simp only [warnBoundaries, Traced.outcome_bind, Traced.outcome_mapError, Traced.outcome_ofExcept,
    outcome_warnBoundary]
  rfl

theorem reports_toTable (c : Cloud) (columns : List String) (lines : List (List String)) :
    Reports (fun t => ∃ rows, c.IsTable columns lines rows t) (c.toTable columns lines).outcome
      (c.faults columns lines) := by
  by_cases hwithin : c.range.Within lines.length
  · rw [outcome_toTable columns hwithin, faults, rangeFaults_eq_nil_iff.mpr hwithin,
      List.nil_append]
    refine (reports_readRows _ _ _ _).bind fun rows hrows => ?_
    have hwidths : ∀ row ∈ rows, row.length = (columns ++ [classColumn]).length := by
      rw [List.length_append]
      exact forall_mem_right hrows fun _ _ hrow => hrow.length
    exact (Table.reports_ofRows_of_width hwidths).mapError.mono fun t ht =>
      ⟨rows, hwithin, hrows, ht⟩
  · have hoff := not_not.mp (mt LineRange.within_iff.mpr hwithin)
    rw [toTable, if_pos hoff, faults, rangeFaults, if_pos hoff]
    exact .fails _ _

theorem faults_eq_nil_iff {c : Cloud} :
    c.faults columns lines = [] ↔
      c.range.Within lines.length ∧
        (∀ tokens ∈ select c.range lines, LineFits columns.length tokens) ∧
        (columns ++ [classColumn]).Nodup := by
  rw [faults, List.append_eq_nil_iff, List.append_eq_nil_iff, rangeFaults_eq_nil_iff,
    rowFaults_eq_nil_iff, List.map_eq_nil_iff, Table.repeatFaults_eq_nil_iff]

end Cloud

namespace DatasetLayout

variable (layout : DatasetLayout) (lines : List (List String))

def firstCloud : Cloud := ⟨"first", layout.first, 0⟩

def secondCloud : Cloud := ⟨"second", layout.second, 1⟩

def faults : List Failure :=
  layout.firstCloud.faults layout.columns lines ++ layout.secondCloud.faults layout.columns lines

structure IsDataset (upper lower : List (List Float)) (t : Table) : Prop where
  firstWithin : layout.first.Within lines.length
  secondWithin : layout.second.Within lines.length
  upperRows :
    List.Forall₂ (Cloud.IsRow layout.columns.length 0) (Cloud.select layout.first lines) upper
  lowerRows :
    List.Forall₂ (Cloud.IsRow layout.columns.length 1) (Cloud.select layout.second lines) lower
  ofRows : Table.ofRows (layout.columns ++ [classColumn]) (upper ++ lower) = .ok t

end DatasetLayout

theorem reports_createDataset (text : String) (layout : DatasetLayout) :
    Reports
      (fun t => ∃ upper lower, layout.IsDataset ((Text.lines text).map Text.words) upper lower t)
      (createDataset text layout).outcome
      (layout.faults ((Text.lines text).map Text.words)) := by
  unfold createDataset
  simp only [Traced.outcome_bind, Traced.outcome_mapError, Traced.outcome_ofExcept]
  refine (Cloud.reports_toTable layout.firstCloud _ _).bind fun first hfirst => ?_
  rw [← List.append_nil (layout.secondCloud.faults _ _)]
  refine (Cloud.reports_toTable layout.secondCloud _ _).bind fun second hsecond => ?_
  obtain ⟨upper, hupper⟩ := hfirst
  obtain ⟨lower, hlower⟩ := hsecond
  rw [Table.append_of_ofRows hupper.ofRows hlower.ofRows (by simp)]
  exact .passes ⟨upper, lower, hupper.within, hlower.within, hupper.isRows, hlower.isRows,
    Table.ofRows_append hupper.ofRows hlower.ofRows⟩

theorem valid_of_createDataset {text : String} {layout : DatasetLayout} {t : Table}
    (h : (createDataset text layout).outcome = .ok t) :
    t.Valid ∧ t.names = layout.columns ++ [classColumn] := by
  obtain ⟨upper, lower, hdataset⟩ := (reports_createDataset text layout).good h
  exact ⟨(ValidTable.ofRows hdataset.ofRows).valid, Table.names_of_ofRows hdataset.ofRows⟩

end FeatureTable
