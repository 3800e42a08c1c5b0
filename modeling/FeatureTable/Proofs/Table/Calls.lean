import FeatureTable.Proofs.Table.Transpose
import FeatureTable.Proofs.Table.Update

namespace FeatureTable

namespace Tables

/-- A valid table in every slot. -/
abbrev AllValid :=
  String → ValidTable

namespace AllValid

def toTables (tables : AllValid) : Tables :=
  fun slot => tables slot

def initial : AllValid :=
  fun _ => .empty

def fill (tables : AllValid) (slot : String) (t : ValidTable) : AllValid :=
  fun other => if other = slot then t else tables other

theorem toTables_fill (tables : AllValid) (slot : String) (t : ValidTable) :
    (tables.fill slot t).toTables = Tables.fill tables.toTables slot t := by
  funext other
  unfold toTables fill Tables.fill
  split <;> rfl

end AllValid

theorem fill_self (tables : Tables) (slot : String) : fill tables slot (tables slot) = tables := by
  funext other
  unfold fill
  split
  · rename_i hother
    rw [hother]
  · rfl

namespace Call

/-- The tables after a call that tried to fill a slot. -/
def fills (tables : Tables) (slot : String) :
    Except TableError Table → Except TableError Unit × Tables
  | .ok t => (.ok (), fill tables slot t)
  | .error error => (.error error, tables)

theorem store_eq (slot : String) (x : Except TableError Table) (tables : Tables) :
    store slot x tables = fills tables slot x := by
  rw [store, Update.bind_eq, Update.mk_pure_eq]
  cases x <;> rfl

theorem change_eq {slot : String} {x : Update Unit} {tables : Tables}
    {result : Except TableError Table} (h : x (tables slot) = Update.leaves (tables slot) result) :
    change slot x tables = fills tables slot result := by
  rw [change, h]
  cases result with
  | ok t => rfl
  | error error => exact congrArg (Prod.mk _) (fill_self tables slot)

/-- The slot that a call fills, and the table that goes there. -/
def slot : Call → String
  | new slot | ofColumns slot _ | ofRows slot _ _ | ofParts slot _ _ | insert slot _ _
  | append slot _ | select _ _ slot | clone _ slot => slot

def result (tables : Tables) : Call → Except TableError Table
  | new _ => .ok .empty
  | ofColumns _ columns => Table.ofColumns columns
  | ofRows _ names rows => Table.ofRows names rows
  | ofParts _ names columns => Table.ofParts names columns
  | insert slot name values => (tables slot).insert name values
  | append slot other => (tables slot).append (tables other)
  | select source names _ => (tables source).select names
  | clone source _ => .ok (tables source)

/-- Every call, those that change a table in place included, fills its slot or does nothing. -/
theorem run_eq (call : Call) (tables : Tables) :
    call.run tables = fills tables call.slot (call.result tables) := by
  cases call with
  | new slot => exact store_eq slot _ tables
  | ofColumns slot columns => exact store_eq slot _ tables
  | ofRows slot names rows => exact store_eq slot _ tables
  | ofParts slot names columns => exact store_eq slot _ tables
  | insert slot name values => exact change_eq (Update.insert_eq _ name values)
  | append slot other => exact change_eq (Update.append_eq _ (tables other))
  | select source names slot => exact store_eq slot _ tables
  | clone source slot => exact store_eq slot (.ok (tables source)) tables

theorem eq_of_run_error {call : Call} {tables : Tables} {error : TableError}
    (h : (call.run tables).1 = .error error) : (call.run tables).2 = tables := by
  rw [run_eq] at h ⊢
  cases hresult : call.result tables with
  | error other => rfl
  | ok t =>
      rw [hresult] at h
      cases h

/-- The table that a call makes of valid ones. -/
def made {tables : AllValid} {t : Table} :
    (call : Call) → call.result tables.toTables = .ok t → ValidTable
  | new _, _ => .empty
  | ofColumns _ _, h => .ofColumns h
  | ofRows _ _ _, h => .ofRows h
  | ofParts _ _ _, h => .ofParts h
  | insert slot _ _, h => (tables slot).inserted h
  | append slot other, h => (tables slot).appended (tables other) h
  | select source _ _, h => (tables source).selected h
  | clone source _, _ => tables source

theorem toTable_made {tables : AllValid} {t : Table} {call : Call}
    (h : call.result tables.toTables = .ok t) : (call.made h).toTable = t := by
  cases call with
  | new slot => exact Except.ok.inj h
  | clone source slot => exact Except.ok.inj h
  | _ => rfl

/-- A call on valid tables leaves valid tables, whether it fails or not. -/
theorem exists_run (call : Call) (tables : AllValid) :
    ∃ after : AllValid, (call.run tables.toTables).2 = after.toTables := by
  rw [run_eq]
  cases hresult : call.result tables.toTables with
  | error error => exact ⟨tables, rfl⟩
  | ok t =>
      refine ⟨tables.fill call.slot (call.made hresult), ?_⟩
      rw [AllValid.toTables_fill, toTable_made]
      rfl

theorem exists_runAll (calls : List Call) (tables : AllValid) :
    ∃ after : AllValid, runAll calls tables.toTables = after.toTables := by
  induction calls generalizing tables with
  | nil => exact ⟨tables, rfl⟩
  | cons call calls ih =>
      obtain ⟨next, hnext⟩ := call.exists_run tables
      obtain ⟨after, hafter⟩ := ih next
      exact ⟨after, (congrArg (runAll calls) hnext).trans hafter⟩

end Call

end Tables

namespace Table

/-- Each name has one column, and all columns go from the first row to the last. -/
structure Rectangular (t : Table) : Prop where
  distinct : t.names.Nodup
  single : ∀ name ∈ t.names, ∃ values, (name, values) ∈ t.columns ∧
    ∀ other, (name, other) ∈ t.columns → other = values
  aligned : ∀ entry ∈ t.columns, entry.2.length = t.height
  rows : t.rows.length = t.height
  row : ∀ index, index < t.height → ∃ row, t.row? index = some row ∧ row.length = t.width

end Table

namespace ValidTable

open Table

variable (t : ValidTable)

theorem single {name : String} (h : name ∈ t.names) :
    ∃ values, (name, values) ∈ t.columns ∧ ∀ other, (name, other) ∈ t.columns → other = values := by
  obtain ⟨values, hvalues⟩ := exists_column?_of_mem h
  refine ⟨values, mem_columns_of_column? hvalues, fun other hother => ?_⟩
  exact Option.some.inj ((t.column?_of_mem hother).symm.trans hvalues)

theorem rectangular : Rectangular t where
  distinct := t.valid.distinct
  single := fun _ => t.single
  aligned := t.valid.aligned
  rows := by rw [t.rows_eq_rowAt, List.length_map, List.length_range]
  row := fun _ hindex => ⟨_, t.row?_eq_rowAt hindex, List.length_map _⟩

end ValidTable

/-- Whatever is done with tables, all of them stay rectangular; a call that fails changes none. -/
theorem Tables.Call.runAll_rectangular (calls : List Call) :
    (∀ slot, (runAll calls initial slot).Rectangular) ∧
      ∀ (call : Call) (error : TableError),
        (call.run (runAll calls initial)).1 = .error error →
          (call.run (runAll calls initial)).2 = runAll calls initial := by
  obtain ⟨after, hafter⟩ := exists_runAll calls AllValid.initial
  refine ⟨fun slot => ?_, fun _ _ => eq_of_run_error⟩
  have hslot : runAll calls initial slot = after slot := congrFun hafter slot
  rw [hslot]
  exact (after slot).rectangular

theorem Tables.Call.runAll_rectangular_two_failures :
    ((append "t" "u").run (runAll [ofColumns "t" [("a", [1, 2]), ("b", [3, 4])],
        ofRows "u" ["a"] [[5]], insert "t" "c" [6]] initial)).1 =
      .error (.columnNotFound "b") ∧
    ((append "t" "u").run (runAll [ofColumns "t" [("a", [1, 2]), ("b", [3, 4])],
        ofRows "u" ["a"] [[5]], insert "t" "c" [6]] initial)).2 =
      runAll [ofColumns "t" [("a", [1, 2]), ("b", [3, 4])],
        ofRows "u" ["a"] [[5]], insert "t" "c" [6]] initial ∧
    (runAll [ofColumns "t" [("a", [1, 2]), ("b", [3, 4])],
        ofRows "u" ["a"] [[5]], insert "t" "c" [6]] initial "t").rows = [[1, 3], [2, 4]] :=
  ⟨rfl, (runAll_rectangular _).2 _ (.columnNotFound "b") rfl, rfl⟩

end FeatureTable
