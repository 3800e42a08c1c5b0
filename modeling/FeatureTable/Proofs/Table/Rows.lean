import FeatureTable.Proofs.Table.Columns
import Mathlib.Data.List.Basic

namespace FeatureTable.Table

def cell? (t : Table) (name : String) (index : Nat) : Option Float :=
  (t.column? name).bind fun values => values[index]?

theorem cell?_of_column? {t : Table} {name : String} {values : Column}
    (h : t.column? name = some values) (index : Nat) : t.cell? name index = values[index]? := by
  rw [cell?, h]
  rfl

theorem cell?_of_not_mem {t : Table} {name : String} (h : name ∉ t.names) (index : Nat) :
    t.cell? name index = none := by
  rw [cell?, column?_eq_none_iff.mpr h]
  rfl

theorem cell?_put (t : Table) (name other : String) (values : Column) (index : Nat) :
    (t.put name values).cell? other index =
      if other = name then values[index]? else t.cell? other index := by
  rw [cell?, column?_put]
  split <;> rfl

theorem lookup_of_mem {columns : List (String × Column)}
    (hdistinct : (columns.map Prod.fst).Nodup) {entry : String × Column}
    (h : entry ∈ columns) : columns.lookup entry.1 = some entry.2 := by
  induction columns with
  | nil => cases h
  | cons head columns ih =>
      rw [List.map_cons, List.nodup_cons] at hdistinct
      rw [lookup_entry]
      rcases List.mem_cons.mp h with rfl | htail
      · exact if_pos rfl
      · have hne : entry.1 ≠ head.1 := fun heq =>
          hdistinct.1 (heq ▸ List.mem_map_of_mem htail)
        rw [if_neg hne]
        exact ih hdistinct.2 htail

/-- The values at an index, where a column without one counts as zero there. -/
def rowAt (columns : List (String × Column)) (index : Nat) : List Float :=
  columns.map fun entry => entry.2.getD index 0

private theorem mapM_congr {α β : Type} {f g : α → Option β} {xs : List α}
    (h : ∀ x ∈ xs, f x = g x) : xs.mapM f = xs.mapM g := by
  induction xs with
  | nil => rfl
  | cons x xs ih =>
      rw [List.mapM_cons, List.mapM_cons, h x List.mem_cons_self,
        ih fun y hy => h y (List.mem_cons_of_mem _ hy)]

end FeatureTable.Table

namespace FeatureTable.ValidTable

open Table

variable (t : ValidTable) {index : Nat}

theorem column?_of_mem {entry : String × Column} (h : entry ∈ t.columns) :
    t.column? entry.1 = some entry.2 :=
  lookup_of_mem t.valid.distinct h

theorem row?_eq_cells (index : Nat) :
    t.row? index = t.names.mapM fun name => t.cell? name index := by
  rw [row?, names, List.mapM_map]
  apply mapM_congr
  intro entry hentry
  exact (cell?_of_column? (t.column?_of_mem hentry) index).symm

theorem row?_eq_rowAt (hindex : index < t.height) :
    t.row? index = some (rowAt t.columns index) := by
  have hvalues : ∀ entry ∈ t.columns, entry.2[index]? = some (entry.2.getD index 0) := by
    intro entry hentry
    rw [← t.valid.aligned entry hentry] at hindex
    rw [List.getD_eq_getElem?_getD, List.getElem?_eq_getElem hindex]
    rfl
  exact (mapM_congr hvalues).trans List.mapM_pure

theorem rows_eq_rowAt : t.rows = (List.range t.height).map (rowAt t.columns) := by
  rw [rows, ← List.filterMap_eq_map]
  apply List.filterMap_congr
  intro index hindex
  exact t.row?_eq_rowAt (List.mem_range.mp hindex)

theorem getElem?_rows (hindex : index < t.height) : t.rows[index]? = t.row? index := by
  rw [t.rows_eq_rowAt, List.getElem?_map, List.getElem?_range hindex, t.row?_eq_rowAt hindex]
  rfl

theorem row?_congr {t u : ValidTable} (hnames : t.names = u.names) {left right : Nat}
    (hcells : ∀ name, t.cell? name left = u.cell? name right) : t.row? left = u.row? right := by
  rw [t.row?_eq_cells, u.row?_eq_cells, hnames]
  exact mapM_congr fun name _ => hcells name

end FeatureTable.ValidTable
