import FeatureTable.Proofs.Table.Select

namespace FeatureTable.Table

/-- A table that accepts a column of another length has no other column. -/
theorem put_eq_singleton {t : Table} {name : String} (values : Column)
    (h : (if t.contains name then t.width - 1 else t.width) = 0) :
    t.put name values = ⟨[(name, values)]⟩ := by
  obtain ⟨columns⟩ := t
  match columns with
  | [] => rfl
  | [(key, old)] =>
      by_cases hname : key = name
      · rw [put, putColumn, if_pos hname]
      · have habsent : (Table.mk [(key, old)]).contains name = false :=
          Bool.eq_false_iff.mpr fun hcontains => hname <| by
            simpa [names, eq_comm] using contains_iff.mp hcontains
        rw [habsent] at h
        cases h
  | _ :: _ :: _ =>
      split at h <;> simp [width] at h

theorem aligned_of_length (height : Nat) {columns : List (String × Column)}
    (h : ∀ entry ∈ columns, entry.2.length = height) :
    ∀ entry ∈ columns, entry.2.length = (Table.mk columns).height := by
  cases columns with
  | nil => simp
  | cons first columns =>
      intro entry hentry
      exact (h entry hentry).trans (h first List.mem_cons_self).symm

def extended (entry : String × Column) (values : Column) : String × Column :=
  (entry.1, entry.2 ++ values)

theorem isEmpty_eq_false_iff {t : Table} : t.isEmpty = false ↔ t.names ≠ [] := by
  rw [isEmpty, List.isEmpty_eq_false_iff, names, ne_eq, ne_eq, List.map_eq_nil_iff]

theorem append_of_isEmpty {t : Table} (h : t.isEmpty = true) (other : Table) :
    t.append other = .ok other := by
  rw [append, if_pos h]

theorem mapM_extended (other : Table) (columns : List (String × Column)) :
    (columns.mapM fun entry => do return (entry.1, entry.2 ++ (← other.get entry.1))) =
      (columns.map Prod.fst).mapM other.get >>= fun incoming =>
        .ok (List.zipWith extended columns incoming) := by
  induction columns with
  | nil => rfl
  | cons entry columns ih =>
      rw [List.mapM_cons, List.map_cons, List.mapM_cons, ih]
      cases other.get entry.1 with
      | error error => rfl
      | ok values => cases (columns.map Prod.fst).mapM other.get <;> rfl

theorem append_of_not_isEmpty {t : Table} (h : t.isEmpty = false) (other : Table) :
    t.append other =
      t.names.mapM other.get >>= fun incoming =>
        .ok ⟨List.zipWith extended t.columns incoming⟩ := by
  rw [append, if_neg (by simp [h])]
  show (t.columns.mapM fun entry => do return (entry.1, entry.2 ++ (← other.get entry.1))) >>= _ = _
  rw [mapM_extended, bind_assoc]
  rfl

/-- The column of a name; a name without one has the empty column. -/
def columnD (t : Table) (name : String) : Column :=
  (t.column? name).getD []

theorem reports_get (t : Table) (name : String) :
    Reports (fun values => t.columnD name = values) (t.get name) (t.absenceFaults name) := by
  rw [absenceFaults, columnD]
  by_cases hname : name ∈ t.names
  · obtain ⟨values, hvalues⟩ := exists_column?_of_mem hname
    rw [if_pos hname, get_eq_ok hvalues, hvalues]
    exact .passes rfl
  · rw [if_neg hname, get_eq_error hname]
    exact .fails _ []

theorem reports_mapM_get (t : Table) (names : List String) :
    Reports (fun columns => columns = names.map t.columnD) (names.mapM t.get)
      (names.flatMap t.absenceFaults) := by
  refine (Reports.mapM fun name _ => t.reports_get name).mono fun columns hcolumns => ?_
  rw [← List.forall₂_map_left_iff, List.forall₂_eq_eq_eq] at hcolumns
  exact hcolumns.symm

theorem reports_append {t : Table} (h : t.isEmpty = false) (other : Table) :
    Reports (fun u => u = ⟨t.columns.map fun entry => extended entry (other.columnD entry.1)⟩)
      (t.append other) (t.names.flatMap other.absenceFaults) := by
  rw [append_of_not_isEmpty h, ← List.append_nil (t.names.flatMap _)]
  refine (other.reports_mapM_get t.names).bind ?_
  rintro incoming rfl
  refine .passes (congrArg Table.mk ?_)
  rw [names, List.map_map, List.zipWith_map_right, List.zipWith_self]
  rfl

theorem append_eq_ok_iff {t other u : Table} (h : t.isEmpty = false) :
    t.append other = .ok u ↔
      (∀ name ∈ t.names, name ∈ other.names) ∧
        u = ⟨t.columns.map fun entry => extended entry (other.columnD entry.1)⟩ := by
  rw [(reports_append h other).eq_ok_iff, flatMap_absenceFaults_eq_nil_iff]

theorem names_of_append {t other u : Table} (hempty : t.isEmpty = false)
    (h : t.append other = .ok u) : u.names = t.names := by
  obtain ⟨-, rfl⟩ := (append_eq_ok_iff hempty).mp h
  simp [names, extended]

end FeatureTable.Table

namespace FeatureTable.ValidTable

open Table

/-! Every operation that makes a table from valid ones makes a valid one. -/

variable (t other : ValidTable) {u : Table}

def inserted {name : String} {values : Column} (h : t.insert name values = .ok u) :
    ValidTable where
  toTable := u
  valid := by
    by_cases hmismatch :
        0 < (if t.contains name then t.width - 1 else t.width) ∧ values.length ≠ t.height
    · rw [Table.insert, if_pos hmismatch] at h
      cases h
    · rw [Table.insert, if_neg hmismatch] at h
      cases h
      rw [not_and_or, not_not, Nat.not_lt, Nat.le_zero] at hmismatch
      rcases hmismatch with hsole | hlength
      · rw [put_eq_singleton values hsole]
        exact valid_singleton (name, values)
      · exact (t.put name hlength).valid

theorem valid_of_insertAll {columns : List (String × Column)} (h : t.insertAll columns = .ok u) :
    u.Valid := by
  induction columns generalizing t with
  | nil =>
      cases h
      exact t.valid
  | cons entry columns ih =>
      rw [insertAll, List.foldlM_cons] at h
      cases hinsert : t.insert entry.1 entry.2 with
      | error error =>
          rw [hinsert] at h
          cases h
      | ok next =>
          rw [hinsert] at h
          exact ih (t.inserted hinsert) h

def ofColumns {columns : List (String × Column)} (h : Table.ofColumns columns = .ok u) :
    ValidTable :=
  ⟨u, empty.valid_of_insertAll h⟩

def ofParts {names : List String} {columns : List Column}
    (h : Table.ofParts names columns = .ok u) : ValidTable where
  toTable := u
  valid := by
    unfold Table.ofParts at h
    split at h
    · cases h
    · cases hdistinct : checkDistinct names with
      | error error =>
          rw [hdistinct] at h
          cases h
      | ok _ =>
          rw [hdistinct] at h
          exact (ofColumns h).valid

def selected {names : List String} (h : t.select names = .ok u) : ValidTable :=
  ⟨u, ((t.reports_select names).good h).valid⟩

theorem length_columnD {name : String} (h : name ∈ t.names) :
    (t.columnD name).length = t.height := by
  obtain ⟨values, hvalues⟩ := exists_column?_of_mem h
  rw [columnD, hvalues]
  exact t.length_of_column? hvalues

def appended (h : t.append other = .ok u) : ValidTable where
  toTable := u
  valid := by
    cases hempty : t.isEmpty with
    | true =>
        rw [append_of_isEmpty hempty] at h
        cases h
        exact other.valid
    | false =>
        obtain ⟨hnames, rfl⟩ := (append_eq_ok_iff hempty).mp h
        refine ⟨?_, aligned_of_length (t.height + other.height) ?_⟩
        · have hdistinct := t.valid.distinct
          rw [names, List.map_map]
          exact hdistinct
        · intro entry hentry
          obtain ⟨old, hold, rfl⟩ := List.mem_map.mp hentry
          rw [extended, List.length_append, t.valid.aligned old hold,
            other.length_columnD (hnames old.1 (List.mem_map_of_mem hold))]

end FeatureTable.ValidTable
