import FeatureTable.Proofs.Table.Build
import FeatureTable.Proofs.Table.Order

namespace FeatureTable.Table

variable {t u v : Table} {xs ys names : List String}

theorem Projects.unique (hu : Projects t names u) (hv : Projects t names v) : u = v := by
  have hsame : SameColumns u v := by
    intro name
    by_cases hname : name ∈ names
    · rw [hu.column name hname, hv.column name hname]
    · rw [hu.column?_of_not_mem hname, hv.column?_of_not_mem hname]
  exact SameColumns.eq (t := ⟨u, hu.valid⟩) (u := ⟨v, hv.valid⟩) hsame
    (hu.names.trans hv.names.symm)

theorem Projects.mem_names (h : Projects t names u) : ∀ name ∈ names, name ∈ t.names := by
  intro name hname
  have hchosen : name ∈ u.names := by rwa [h.names, List.mem_eraseDups]
  obtain ⟨values, hvalues⟩ := exists_column?_of_mem hchosen
  rw [h.column name hname] at hvalues
  exact List.mem_map_of_mem (mem_columns_of_column? hvalues)

theorem Projects.trans (hu : Projects t xs u) (hv : Projects u ys v) (h : ∀ name ∈ ys, name ∈ xs) :
    Projects t ys v where
  valid := hv.valid
  names := hv.names
  column := fun name hname => (hv.column name hname).trans (hu.column name (h name hname))
  height := fun hne => by
    obtain ⟨name, hname⟩ := List.exists_mem_of_ne_nil ys hne
    rw [hv.height hne, hu.height (List.ne_nil_of_mem (h name hname))]

end FeatureTable.Table

namespace FeatureTable.ValidTable

open Table

variable (t : ValidTable) {u : Table} {xs ys names : List String}

theorem exists_select_iff : (∃ u, t.select names = .ok u) ↔ ∀ name ∈ names, name ∈ t.names := by
  rw [(t.reports_select names).exists_ok_iff, flatMap_absenceFaults_eq_nil_iff]

theorem select_eq_ok_iff : t.select names = .ok u ↔ Projects t names u := by
  constructor
  · exact (t.reports_select names).good
  · intro hu
    obtain ⟨v, hv⟩ := t.exists_select_iff.mpr hu.mem_names
    rw [hv, ((t.reports_select names).good hv).unique hu]

theorem projects_self : Projects t t.names t where
  valid := t.valid
  names := (eraseDups_of_nodup t.valid.distinct).symm
  column := fun _ _ => rfl
  height := fun _ => rfl

theorem select_select (hu : t.select xs = .ok u) (h : ∀ name ∈ ys, name ∈ xs) :
    ∃ v, u.select ys = .ok v ∧ t.select ys = .ok v := by
  have hprojects : Projects t xs u := t.select_eq_ok_iff.mp hu
  have hnames : ∀ name ∈ ys, name ∈ u.names := by
    intro name hname
    rw [hprojects.names, List.mem_eraseDups]
    exact h name hname
  obtain ⟨v, hv⟩ := (t.selected hu).exists_select_iff.mpr hnames
  have hinner : Projects u ys v := (t.selected hu).select_eq_ok_iff.mp hv
  exact ⟨v, hv, t.select_eq_ok_iff.mpr (hprojects.trans hinner h)⟩

end FeatureTable.ValidTable

namespace FeatureTable.Table

variable {t : Table}

/-- What is selected is the projection on the names; the first name without a column is at fault.
All names give the table back, and of two selections the second alone counts. -/
theorem select_projects (ht : t.Valid) (xs ys : List String) :
    ((∃ u, t.select xs = .ok u) ↔ ∀ name ∈ xs, name ∈ t.names) ∧
      (∀ fault, t.select xs = .error fault ↔
        ∃ place name, FirstAt (· ∉ t.names) xs place name ∧ fault = .columnNotFound name) ∧
      (∀ u, t.select xs = .ok u ↔ Projects t xs u) ∧
      t.select t.names = .ok t ∧
      ∀ u, t.select xs = .ok u → (∀ name ∈ ys, name ∈ xs) →
        ∃ v, u.select ys = .ok v ∧ t.select ys = .ok v := by
  lift t to ValidTable using ht
  refine ⟨t.exists_select_iff, fun fault => ?_, fun u => t.select_eq_ok_iff,
    t.select_eq_ok_iff.mpr t.projects_self, fun u hu hnames => t.select_select hu hnames⟩
  rw [(t.reports_select xs).eq_error_iff, head?_flatMap_absenceFaults]

theorem select_projects_repeated_names :
    (⟨[("A", [1, 2]), ("B", [3, 4]), ("C", [5, 6])]⟩ : Table).Valid ∧
      Projects ⟨[("A", [1, 2]), ("B", [3, 4]), ("C", [5, 6])]⟩ ["C", "A", "C"]
        ⟨[("C", [5, 6]), ("A", [1, 2])]⟩ ∧
      ∃ v, (⟨[("C", [5, 6]), ("A", [1, 2])]⟩ : Table).select ["A", "A"] = .ok v ∧
        (⟨[("A", [1, 2]), ("B", [3, 4]), ("C", [5, 6])]⟩ : Table).select ["A", "A"] = .ok v := by
  have hvalid : (⟨[("A", [1, 2]), ("B", [3, 4]), ("C", [5, 6])]⟩ : Table).Valid :=
    ⟨by decide, by decide⟩
  obtain ⟨-, -, hselected, -, hagain⟩ := select_projects hvalid ["C", "A", "C"] ["A", "A"]
  exact ⟨hvalid, (hselected _).mp rfl, hagain _ rfl (by simp)⟩

end FeatureTable.Table
