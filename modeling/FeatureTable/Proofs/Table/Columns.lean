import FeatureTable.Table.Basic
import Mathlib.Tactic.Lift

namespace FeatureTable.Table

theorem lookup_entry (name key : String) (values : Column) (columns : List (String × Column)) :
    ((key, values) :: columns).lookup name =
      if name = key then some values else columns.lookup name := by
  rw [List.lookup_cons]
  by_cases hname : name = key
  · rw [if_pos hname, beq_iff_eq.mpr hname]
  · rw [if_neg hname, beq_false_of_ne hname]

theorem lookup_eq_none_iff {columns : List (String × Column)} {name : String} :
    columns.lookup name = none ↔ name ∉ columns.map Prod.fst := by
  induction columns with
  | nil => simp
  | cons entry columns ih =>
      rw [lookup_entry, List.map_cons, List.mem_cons, not_or]
      by_cases hname : name = entry.1
      · simp [hname]
      · rw [if_neg hname, ih]
        exact ⟨fun h => ⟨hname, h⟩, And.right⟩

theorem column?_eq_none_iff {t : Table} {name : String} :
    t.column? name = none ↔ name ∉ t.names :=
  lookup_eq_none_iff

theorem contains_iff {t : Table} {name : String} :
    t.contains name = true ↔ name ∈ t.names := by
  have hnone := @column?_eq_none_iff t name
  unfold contains
  cases hcolumn : t.column? name with
  | none => simpa using hnone.mp hcolumn
  | some values =>
      rw [hcolumn] at hnone
      simpa using hnone

theorem contains_eq_of_mem_iff {t u : Table} (h : ∀ name, name ∈ t.names ↔ name ∈ u.names) :
    t.contains = u.contains := by
  funext name
  rw [Bool.eq_iff_iff, contains_iff, contains_iff, h]

theorem exists_column?_of_mem {t : Table} {name : String} (h : name ∈ t.names) :
    ∃ values, t.column? name = some values := by
  cases hcolumn : t.column? name with
  | none => exact absurd h (column?_eq_none_iff.mp hcolumn)
  | some values => exact ⟨values, rfl⟩

theorem mem_columns_of_column? {t : Table} {name : String} {values : Column}
    (h : t.column? name = some values) : (name, values) ∈ t.columns := by
  obtain ⟨before, after, hcolumns, -⟩ := List.lookup_eq_some_iff.mp h
  rw [hcolumns]
  simp

theorem lookup_putColumn (name other : String) (values : Column)
    (columns : List (String × Column)) :
    (putColumn name values columns).lookup other =
      if other = name then some values else columns.lookup other := by
  induction columns with
  | nil => exact lookup_entry other name values []
  | cons entry columns ih =>
      obtain ⟨key, old⟩ := entry
      by_cases hkey : key = name
      · subst hkey
        rw [putColumn, if_pos rfl, lookup_entry, lookup_entry]
        by_cases hother : other = key
        · rw [if_pos hother, if_pos hother]
        · rw [if_neg hother, if_neg hother, if_neg hother]
      · rw [putColumn, if_neg hkey, lookup_entry, lookup_entry, ih]
        by_cases hother : other = key
        · have hne : other ≠ name := fun h => hkey (hother ▸ h)
          rw [if_pos hother, if_neg hne, if_pos hother]
        · rw [if_neg hother, if_neg hother]

theorem column?_put (t : Table) (name other : String) (values : Column) :
    (t.put name values).column? other = if other = name then some values else t.column? other :=
  lookup_putColumn name other values t.columns

theorem map_fst_putColumn (name : String) (values : Column) (columns : List (String × Column)) :
    (putColumn name values columns).map Prod.fst =
      if name ∈ columns.map Prod.fst then columns.map Prod.fst
      else columns.map Prod.fst ++ [name] := by
  induction columns with
  | nil => rfl
  | cons entry columns ih =>
      obtain ⟨key, old⟩ := entry
      by_cases hkey : key = name
      · subst hkey
        simp [putColumn]
      · simp only [putColumn, hkey, if_false, List.map_cons, ih, List.mem_cons, Ne.symm hkey,
          false_or]
        split <;> simp

theorem names_put (t : Table) (name : String) (values : Column) :
    (t.put name values).names = if name ∈ t.names then t.names else t.names ++ [name] :=
  map_fst_putColumn name values t.columns

theorem names_prefix_put (t : Table) (name : String) (values : Column) :
    t.names <+: (t.put name values).names := by
  rw [names_put]
  split
  · exact List.prefix_rfl
  · exact List.prefix_append _ _

theorem mem_names_put {t : Table} {name other : String} {values : Column} :
    other ∈ (t.put name values).names ↔ other = name ∨ other ∈ t.names := by
  rw [names_put]
  split
  · rename_i hname
    constructor
    · exact Or.inr
    · rintro (rfl | hother)
      · exact hname
      · exact hother
  · rw [List.mem_append, List.mem_singleton, or_comm]

theorem mem_putColumn {name : String} {values : Column} {entry : String × Column}
    {columns : List (String × Column)} (h : entry ∈ putColumn name values columns) :
    entry = (name, values) ∨ entry ∈ columns := by
  induction columns with
  | nil => exact Or.inl (List.mem_singleton.mp h)
  | cons head columns ih =>
      simp only [putColumn] at h
      split at h
      · rcases List.mem_cons.mp h with rfl | htail
        · exact Or.inl rfl
        · exact Or.inr (List.mem_cons_of_mem _ htail)
      · rcases List.mem_cons.mp h with rfl | htail
        · exact Or.inr List.mem_cons_self
        · exact (ih htail).imp_right (List.mem_cons_of_mem _)

theorem height_put {t : Table} {name : String} {values : Column}
    (hlength : values.length = t.height) : (t.put name values).height = t.height := by
  obtain ⟨columns⟩ := t
  cases columns with
  | nil => exact hlength
  | cons entry columns =>
      unfold put putColumn
      split
      · exact hlength
      · rfl

theorem nodup_names_put {t : Table} (hdistinct : t.names.Nodup) (name : String)
    (values : Column) : (t.put name values).names.Nodup := by
  rw [names_put]
  split
  · exact hdistinct
  · rename_i hname
    rw [List.nodup_append]
    refine ⟨hdistinct, by simp, ?_⟩
    intro left hleft right hright heq
    rw [List.mem_singleton] at hright
    exact hname (hright ▸ heq ▸ hleft)

theorem insert_of_length {t : Table} {name : String} {values : Column}
    (hlength : values.length = t.height) : t.insert name values = .ok (t.put name values) := by
  unfold insert
  rw [if_neg]
  rintro ⟨-, hne⟩
  exact hne hlength

theorem insert_empty (name : String) (values : Column) :
    empty.insert name values = .ok ⟨[(name, values)]⟩ := rfl

theorem get_eq_ok {t : Table} {name : String} {values : Column}
    (h : t.column? name = some values) : t.get name = .ok values := by
  rw [get, h]

theorem get_eq_error {t : Table} {name : String} (h : name ∉ t.names) :
    t.get name = .error (.columnNotFound name) := by
  rw [get, column?_eq_none_iff.mpr h]

end FeatureTable.Table

namespace FeatureTable.ValidTable

open Table

instance : CanLift Table ValidTable toTable Valid :=
  ⟨fun t ht => ⟨⟨t, ht⟩, rfl⟩⟩

theorem length_of_column? (t : ValidTable) {name : String} {values : Column}
    (h : t.column? name = some values) : values.length = t.height :=
  t.valid.aligned _ (mem_columns_of_column? h)

/-- A column as long as the table leaves the table valid. -/
def put (t : ValidTable) (name : String) {values : Column} (hlength : values.length = t.height) :
    ValidTable where
  toTable := t.toTable.put name values
  valid := by
    refine ⟨nodup_names_put t.valid.distinct name values, ?_⟩
    intro entry hentry
    rw [height_put hlength]
    rcases mem_putColumn hentry with rfl | hold
    · exact hlength
    · exact t.valid.aligned entry hold

end FeatureTable.ValidTable
