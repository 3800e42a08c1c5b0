import FeatureTable.Proofs.Table.Select

namespace FeatureTable.Table

/-- The tables have the same columns under the same names, in whatever order. -/
def SameColumns (t u : Table) : Prop :=
  ∀ name, t.column? name = u.column? name

namespace SameColumns

variable {t u v : Table}

theorem refl (t : Table) : SameColumns t t :=
  fun _ => rfl

theorem trans (h : SameColumns t u) (h' : SameColumns u v) : SameColumns t v :=
  fun name => (h name).trans (h' name)

theorem mem_names (h : SameColumns t u) (name : String) : name ∈ t.names ↔ name ∈ u.names := by
  rw [← not_iff_not, ← column?_eq_none_iff, ← column?_eq_none_iff, h]

theorem height {t u : ValidTable} (h : SameColumns t u) : t.height = u.height := by
  cases hnames : t.names with
  | nil =>
      have hempty : u.names = [] := by
        rw [List.eq_nil_iff_forall_not_mem]
        intro name hname
        rw [← h.mem_names, hnames] at hname
        cases hname
      rw [eq_empty_of_names hnames, eq_empty_of_names hempty]
  | cons name rest =>
      -- A column that both tables have is as long as each of them.
      have hname : name ∈ t.names := hnames ▸ List.mem_cons_self
      obtain ⟨values, hvalues⟩ := exists_column?_of_mem hname
      rw [← t.length_of_column? hvalues, ← u.length_of_column? ((h name).symm.trans hvalues)]

theorem put (h : SameColumns t u) (name : String) (values : Column) :
    SameColumns (t.put name values) (u.put name values) := by
  intro other
  rw [column?_put, column?_put, h]

end SameColumns

theorem sameColumns_put_comm {name other : String} (hne : name ≠ other) (t : Table)
    (values values' : Column) :
    SameColumns ((t.put name values).put other values')
      ((t.put other values').put name values) := by
  intro key
  simp only [column?_put]
  by_cases hname : key = name
  · rw [if_neg (hname.trans_ne hne), if_pos hname, if_pos hname]
  · rw [if_neg hname, if_neg hname]

theorem columns_eq_map (t : ValidTable) :
    t.columns = t.names.map fun name => (name, (t.column? name).getD []) := by
  rw [names, List.map_map]
  refine (List.map_congr_left ?_).trans (List.map_id t.columns) |>.symm
  intro entry hentry
  rw [Function.comp_apply, t.column?_of_mem hentry]
  rfl

theorem SameColumns.eq {t u : ValidTable} (h : SameColumns t u) (hnames : t.names = u.names) :
    t.toTable = u.toTable := by
  have hcolumns : t.columns = u.columns := by
    rw [columns_eq_map t, columns_eq_map u, hnames]
    exact List.map_congr_left fun name _ => by rw [h name]
  exact congrArg Table.mk hcolumns

/-- Two tables that grew from one have their new columns alone in different places. -/
theorem SameColumns.exists_perm {s : Table} {t u : ValidTable} (h : SameColumns t u)
    (hst : s.names <+: t.names) (hsu : s.names <+: u.names) :
    ∃ left right, t.names = s.names ++ left ∧ u.names = s.names ++ right ∧ left.Perm right := by
  obtain ⟨left, hleft⟩ := hst
  obtain ⟨right, hright⟩ := hsu
  refine ⟨left, right, hleft.symm, hright.symm, ?_⟩
  have hperm : t.names.Perm u.names :=
    (List.perm_ext_iff_of_nodup t.valid.distinct u.valid.distinct).mpr h.mem_names
  rw [← hleft, ← hright] at hperm
  exact (List.perm_append_left_iff s.names).mp hperm

end FeatureTable.Table
