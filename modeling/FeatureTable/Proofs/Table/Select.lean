import FeatureTable.Proofs.FirstAt
import FeatureTable.Proofs.Reports
import FeatureTable.Proofs.Table.Rows

namespace FeatureTable.Table

def absenceFaults (t : Table) (name : String) : List TableError :=
  if name ∈ t.names then [] else [.columnNotFound name]

theorem flatMap_absenceFaults_eq_nil_iff {t : Table} {names : List String} :
    names.flatMap t.absenceFaults = [] ↔ ∀ name ∈ names, name ∈ t.names := by
  simp [absenceFaults]

theorem head?_flatMap_absenceFaults {t : Table} {names : List String} {fault : TableError} :
    (names.flatMap t.absenceFaults).head? = some fault ↔
      ∃ place name, FirstAt (· ∉ t.names) names place name ∧ fault = .columnNotFound name :=
  head?_flatMap_single (fun _ h => if_pos (not_not.mp h)) (fun _ h => if_neg h) names

/-- `select` goes through the names once.  What it has built after some of them is the projection of
the table on these names. -/
structure Projects (t : Table) (chosen : List String) (selected : Table) : Prop where
  valid : selected.Valid
  names : selected.names = chosen.eraseDups
  column : ∀ name ∈ chosen, selected.column? name = t.column? name
  height : chosen ≠ [] → selected.height = t.height

private def pick (t selected : Table) (name : String) : Except TableError Table := do
  selected.insert name (← t.get name)

theorem eraseDups_concat (chosen : List String) (name : String) :
    (chosen ++ [name]).eraseDups =
      if name ∈ chosen then chosen.eraseDups else chosen.eraseDups ++ [name] := by
  rw [List.eraseDups_append, List.removeAll]
  split
  · rename_i hname
    simp [hname]
  · rename_i hname
    simp [hname, List.eraseDups_cons]

theorem eraseDups_of_nodup {names : List String} (h : names.Nodup) : names.eraseDups = names := by
  induction names with
  | nil => rfl
  | cons name names ih =>
      obtain ⟨hname, hnames⟩ := List.nodup_cons.mp h
      have hkept : names.filter (fun other => !other == name) = names := by
        rw [List.filter_eq_self]
        rintro other hother
        simpa using fun heq : other = name => hname (heq ▸ hother)
      rw [List.eraseDups_cons, hkept, ih hnames]

theorem projects_empty (t : Table) : Projects t [] empty where
  valid := valid_empty
  names := rfl
  column := fun _ hname => absurd hname List.not_mem_nil
  height := fun hne => absurd rfl hne

theorem eq_empty_of_names {t : Table} (h : t.names = []) : t = empty := by
  obtain ⟨columns⟩ := t
  have hcolumns : columns = [] := List.map_eq_nil_iff.mp h
  rw [hcolumns]
  rfl

theorem valid_singleton (entry : String × Column) : (⟨[entry]⟩ : Table).Valid where
  distinct := List.nodup_cons.mpr ⟨List.not_mem_nil, List.nodup_nil⟩
  aligned := by
    intro other hother
    rw [List.mem_singleton.mp hother]
    rfl

theorem Projects.insert {t : ValidTable} {chosen : List String} {selected : Table}
    (h : Projects t chosen selected) {name : String} {values : Column}
    (hvalues : t.column? name = some values) :
    selected.insert name values = .ok (selected.put name values) ∧
      (selected.put name values).Valid ∧
      (selected.put name values).height = t.height := by
  have hlength : values.length = t.height := t.length_of_column? hvalues
  -- The empty table has no height of its own, and takes a first column of any length.
  by_cases hchosen : chosen = []
  · have hselected : selected = empty := eq_empty_of_names (by rw [h.names, hchosen]; rfl)
    subst hselected
    exact ⟨insert_empty name values, valid_singleton (name, values), hlength⟩
  · have hsame : values.length = selected.height := hlength.trans (h.height hchosen).symm
    refine ⟨insert_of_length hsame, (ValidTable.put ⟨selected, h.valid⟩ name hsame).valid, ?_⟩
    rw [height_put hsame, h.height hchosen]

theorem Projects.pick {t : ValidTable} {chosen : List String} {selected : Table}
    (h : Projects t chosen selected) (name : String) :
    Reports (Projects t (chosen ++ [name])) (pick t selected name) (t.absenceFaults name) := by
  rw [Table.pick, absenceFaults]
  by_cases hname : name ∈ t.names
  · obtain ⟨values, hvalues⟩ := exists_column?_of_mem hname
    obtain ⟨hinsert, hvalid, hheight⟩ := h.insert hvalues
    rw [if_pos hname, get_eq_ok hvalues]
    show Reports _ (selected.insert name values) []
    rw [hinsert]
    refine .passes ⟨hvalid, ?_, fun other hother => ?_, fun _ => hheight⟩
    · rw [names_put, eraseDups_concat, h.names]
      simp only [List.mem_eraseDups]
    · rw [column?_put]
      split
      · rename_i heq
        rw [heq, hvalues]
      · rename_i hne
        exact h.column other (by simpa [hne] using hother)
  · rw [if_neg hname, get_eq_error hname]
    exact .fails _ []

theorem Projects.column?_of_not_mem {t : Table} {chosen : List String} {selected : Table}
    (h : Projects t chosen selected) {name : String} (hname : name ∉ chosen) :
    selected.column? name = none := by
  rwa [column?_eq_none_iff, h.names, List.mem_eraseDups]

theorem Projects.cell? {t : Table} {chosen : List String} {selected : Table}
    (h : Projects t chosen selected) (name : String) (index : Nat) :
    selected.cell? name index = if name ∈ chosen then t.cell? name index else none := by
  split
  · rename_i hname
    rw [Table.cell?, h.column name hname, Table.cell?]
  · rename_i hname
    rw [Table.cell?, h.column?_of_not_mem hname, Option.bind_none]

end FeatureTable.Table

namespace FeatureTable.ValidTable

open Table

variable (t : ValidTable) {names : List String}

theorem reports_select (names : List String) :
    Reports (Projects t names) (t.select names) (names.flatMap t.absenceFaults) :=
  Reports.foldlM (projects_empty t) fun _ name _ _ _ h => h.pick name

theorem select_eq_error {absent : String}
    (habsent : (names.find? fun name => !t.contains name) = some absent) :
    t.select names = .error (.columnNotFound absent) := by
  have hmissing : ∀ name, (!t.contains name) = true ↔ name ∉ t.names := fun name => by
    rw [← contains_iff, Bool.not_eq_true', Bool.not_eq_true]
  obtain ⟨place, hfirst⟩ := (find?_eq_some_iff_firstAt hmissing).mp habsent
  rw [(t.reports_select names).eq_error_iff, head?_flatMap_absenceFaults]
  exact ⟨place, absent, hfirst, rfl⟩

theorem select_eq_ok (habsent : (names.find? fun name => !t.contains name) = none) :
    ∃ selected : ValidTable, t.select names = .ok selected.toTable ∧ Projects t names selected := by
  have hnames : ∀ name ∈ names, name ∈ t.names := by
    intro name hname
    have hcontains := List.find?_eq_none.mp habsent name hname
    exact contains_iff.mp (by simpa using hcontains)
  obtain ⟨selected, hselected⟩ :=
    (t.reports_select names).exists_ok_iff.mpr (flatMap_absenceFaults_eq_nil_iff.mpr hnames)
  have hprojects := (t.reports_select names).good hselected
  exact ⟨⟨selected, hprojects.valid⟩, hselected, hprojects⟩

end FeatureTable.ValidTable
