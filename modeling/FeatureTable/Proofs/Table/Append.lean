import FeatureTable.Proofs.Table.Projection
import FeatureTable.Proofs.Table.Transpose
import FeatureTable.Proofs.Table.Update

namespace FeatureTable.Table

variable {a b c u v : Table} {name : String}

theorem append_of_projects (hempty : a.isEmpty = false) {selected : Table}
    (hselected : Projects b a.names selected) : a.append selected = a.append b := by
  have hcolumns : ∀ entry ∈ a.columns, selected.columnD entry.1 = b.columnD entry.1 := by
    intro entry hentry
    rw [columnD, columnD, hselected.column entry.1 (List.mem_map_of_mem hentry)]
  have happend : a.append b =
      .ok ⟨a.columns.map fun entry => extended entry (b.columnD entry.1)⟩ :=
    (append_eq_ok_iff hempty).mpr ⟨hselected.mem_names, rfl⟩
  rw [happend, append_eq_ok_iff hempty]
  refine ⟨fun name hname => ?_, congrArg Table.mk (List.map_congr_left fun entry hentry => ?_)⟩
  · rwa [hselected.names, List.mem_eraseDups]
  · rw [hcolumns entry hentry]

theorem rows_append {a b : ValidTable} (hempty : a.isEmpty = false) (h : a.append b = .ok u) :
    ∃ s, b.select a.names = .ok s ∧ u.rows = a.rows ++ s.rows := by
  obtain ⟨s, hs⟩ := b.exists_select_iff.mpr ((append_eq_ok_iff hempty).mp h).1
  have hprojects : Projects b a.names s := b.select_eq_ok_iff.mp hs
  have hnames : s.names = a.names := hprojects.names.trans (eraseDups_of_nodup a.valid.distinct)
  have hlower : ofRows a.names s.rows = .ok s := hnames ▸ ofRows_rows (b.selected hs)
  have hne : a.names ≠ [] := isEmpty_eq_false_iff.mp hempty
  have hjoined : ofRows a.names (a.rows ++ s.rows) = .ok u := by
    rw [ofRows_append (ofRows_rows a) hlower, ← append_of_ofRows (ofRows_rows a) hlower hne,
      append_of_projects hempty hprojects, h]
  exact ⟨s, hs, rows_of_ofRows hjoined hne⟩

theorem lookup_map_extended (f : String → Column) (columns : List (String × Column)) :
    (columns.map fun entry => extended entry (f entry.1)).lookup name =
      (columns.lookup name).map (· ++ f name) := by
  induction columns with
  | nil => rfl
  | cons entry columns ih =>
      rw [List.map_cons, extended, lookup_entry, lookup_entry, ih]
      split
      · rename_i hname
        rw [hname, Option.map_some]
      · rfl

theorem columnD_of_append (hempty : a.isEmpty = false) (h : a.append b = .ok u)
    (hname : name ∈ a.names) : u.columnD name = a.columnD name ++ b.columnD name := by
  obtain ⟨-, rfl⟩ := (append_eq_ok_iff hempty).mp h
  obtain ⟨values, hvalues⟩ := exists_column?_of_mem hname
  rw [columnD, columnD, column?, lookup_map_extended, ← column?, hvalues]
  rfl

theorem extended_extended (entry : String × Column) (first second : Column) :
    extended (extended entry first) second = extended entry (first ++ second) :=
  congrArg (Prod.mk entry.1) (List.append_assoc entry.2 first second)

theorem append_append (hb : b.isEmpty = false) (hbc : b.append c = .ok u)
    (h : a.append u = .ok v) : ∃ ab, a.append b = .ok ab ∧ ab.append c = .ok v := by
  cases ha : a.isEmpty with
  | true =>
      rw [append_of_isEmpty ha] at h
      cases h
      exact ⟨b, append_of_isEmpty ha b, hbc⟩
  | false =>
      have hnames : ∀ name ∈ a.names, name ∈ b.names :=
        names_of_append hb hbc ▸ ((append_eq_ok_iff ha).mp h).1
      have hfurther : ∀ name ∈ b.names, name ∈ c.names := ((append_eq_ok_iff hb).mp hbc).1
      obtain ⟨ab, hab⟩ : ∃ ab, a.append b = .ok ab :=
        ⟨_, (append_eq_ok_iff ha).mpr ⟨hnames, rfl⟩⟩
      have hempty : ab.isEmpty = false := by
        rw [isEmpty_eq_false_iff, names_of_append ha hab]
        exact isEmpty_eq_false_iff.mp ha
      refine ⟨ab, hab, (append_eq_ok_iff hempty).mpr ⟨fun name hname => ?_, ?_⟩⟩
      · exact hfurther name (hnames name (names_of_append ha hab ▸ hname))
      · obtain ⟨-, rfl⟩ := (append_eq_ok_iff ha).mp hab
        obtain ⟨-, rfl⟩ := (append_eq_ok_iff ha).mp h
        rw [List.map_map]
        refine congrArg Table.mk (List.map_congr_left fun entry hentry => ?_)
        have hname : entry.1 ∈ b.names := hnames entry.1 (List.mem_map_of_mem hentry)
        rw [columnD_of_append hb hbc hname, Function.comp_apply, extended_extended]
        rfl

/-- Only tables without columns take the rows of one without columns. -/
theorem isEmpty_of_append (hb : b.isEmpty = true) (h : a.append b = .ok u) : a.isEmpty = true := by
  rw [← Bool.not_eq_false]
  intro ha
  obtain ⟨name, hname⟩ := List.exists_mem_of_ne_nil _ (isEmpty_eq_false_iff.mp ha)
  have hmem : name ∈ b.names := ((append_eq_ok_iff ha).mp h).1 name hname
  rw [isEmpty_eq_false_iff.mpr (List.ne_nil_of_mem hmem)] at hb
  cases hb

theorem append_assoc {ab bc : Table} (hab : a.append b = .ok ab) (hu : ab.append c = .ok u)
    (hbc : b.append c = .ok bc) (hv : a.append bc = .ok v) : u = v := by
  cases hb : b.isEmpty with
  | false =>
      obtain ⟨joined, hjoined, hlast⟩ := append_append hb hbc hv
      rw [hab] at hjoined
      cases hjoined
      exact Except.ok.inj (hu.symm.trans hlast)
  | true =>
      have ha : a.isEmpty = true := isEmpty_of_append hb hab
      rw [append_of_isEmpty ha] at hab hv
      cases hab
      cases hv
      exact Except.ok.inj (hu.symm.trans hbc)

/-- Appending puts the rows of another table, taken in the order of the own names, below the own
rows.  A table with a name that has no column there stays as it is. -/
theorem append_concatenates (ha : a.Valid) (hb : b.Valid) (c : Table) :
    (∀ u, Update.append b a = (.ok (), u) ↔ a.append b = .ok u) ∧
      (a.isEmpty = true → a.append b = .ok b) ∧
      (a.isEmpty = false →
        ((∃ u, a.append b = .ok u) ↔ ∀ name ∈ a.names, name ∈ b.names) ∧
        (∀ fault after, Update.append b a = (.error fault, after) ↔
          after = a ∧ ∃ place name, FirstAt (· ∉ b.names) a.names place name ∧
            fault = .columnNotFound name) ∧
        ∀ u, a.append b = .ok u → u.names = a.names ∧
          ∃ s, b.select a.names = .ok s ∧ u.rows = a.rows ++ s.rows) ∧
      (∀ ab bc u v, a.append b = .ok ab → ab.append c = .ok u → b.append c = .ok bc →
        a.append bc = .ok v → u = v) ∧
      (b.isEmpty = false → ∀ bc v, b.append c = .ok bc → a.append bc = .ok v →
        ∃ ab, a.append b = .ok ab ∧ ab.append c = .ok v) := by
  lift a to ValidTable using ha
  lift b to ValidTable using hb
  refine ⟨fun u => ?_, fun hempty => append_of_isEmpty hempty b,
    fun hempty => ⟨?_, fun fault after => ?_, fun u hu => ?_⟩,
    fun _ _ _ _ => append_assoc, fun hfilled _ _ => append_append hfilled⟩
  · rw [Update.append_eq, Update.leaves_eq_ok_iff]
  · rw [(reports_append hempty b).exists_ok_iff, flatMap_absenceFaults_eq_nil_iff]
  · rw [Update.append_eq, Update.leaves_eq_error_iff, (reports_append hempty b).eq_error_iff,
      head?_flatMap_absenceFaults, and_comm]
  · exact ⟨names_of_append hempty hu, rows_append hempty hu⟩

theorem append_concatenates_by_name :
    (⟨[("x", [1]), ("y", [2])]⟩ : Table).Valid ∧
      (⟨[("y", [4]), ("z", [9]), ("x", [3])]⟩ : Table).Valid ∧
      (∃ s, (⟨[("y", [4]), ("z", [9]), ("x", [3])]⟩ : Table).select ["x", "y"] = .ok s ∧
        (⟨[("x", [1, 3]), ("y", [2, 4])]⟩ : Table).rows = [[1, 2]] ++ s.rows) ∧
      ∃ ab, (⟨[("x", [1]), ("y", [2])]⟩ : Table).append
          ⟨[("y", [4]), ("z", [9]), ("x", [3])]⟩ = .ok ab ∧
        ab.append ⟨[("z", [7]), ("y", [6]), ("x", [5])]⟩ =
          .ok ⟨[("x", [1, 3, 5]), ("y", [2, 4, 6])]⟩ := by
  have ha : (⟨[("x", [1]), ("y", [2])]⟩ : Table).Valid :=
    ⟨by decide, by decide⟩
  have hb : (⟨[("y", [4]), ("z", [9]), ("x", [3])]⟩ : Table).Valid :=
    ⟨by decide, by decide⟩
  obtain ⟨-, -, hjoined, -, hinner⟩ :=
    append_concatenates ha hb ⟨[("z", [7]), ("y", [6]), ("x", [5])]⟩
  exact ⟨ha, hb, ((hjoined rfl).2.2 _ rfl).2, hinner rfl _ _ rfl rfl⟩

end FeatureTable.Table
