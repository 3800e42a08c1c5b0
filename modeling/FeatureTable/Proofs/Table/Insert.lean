import FeatureTable.Proofs.Table.Order
import FeatureTable.Proofs.Table.Update

namespace FeatureTable.Table

variable {t u v : Table} {name : String} {values second : Column}

/-! A table is a map from names to columns that keeps its names in the order of their arrival, and
inserting a column is an update of the map. -/

/-- The column stands under its name, and under the other names all is as before. -/
structure Inserted (t : Table) (name : String) (values : Column) (u : Table) : Prop where
  valid : u.Valid
  names : u.names = if name ∈ t.names then t.names else t.names ++ [name]
  here : u.column? name = some values
  elsewhere : ∀ other, other ≠ name → u.column? other = t.column? other
  height : u.height = values.length

/-- The column differs in length from a column of another name. -/
def Clashes (t : Table) (name : String) (values : Column) : Prop :=
  (∃ other ∈ t.names, other ≠ name) ∧ values.length ≠ t.height

theorem Inserted.unique (hu : Inserted t name values u) (hv : Inserted t name values v) :
    u = v := by
  have hsame : SameColumns u v := by
    intro key
    by_cases hkey : key = name
    · rw [hkey, hu.here, hv.here]
    · rw [hu.elsewhere key hkey, hv.elsewhere key hkey]
  exact SameColumns.eq (t := ⟨u, hu.valid⟩) (u := ⟨v, hv.valid⟩) hsame
    (hu.names.trans hv.names.symm)

theorem Inserted.mem_names (h : Inserted t name values u) {key : String} (hkey : key ∈ t.names) :
    key ∈ u.names := by
  rw [h.names]
  split
  · exact hkey
  · exact List.mem_append_left _ hkey

theorem Inserted.again (hu : Inserted t name values u) (hv : Inserted u name second v) :
    Inserted t name second v where
  valid := hv.valid
  names := by
    have hname : name ∈ u.names := by
      by_contra habsent
      have hnone := column?_eq_none_iff.mpr habsent
      rw [hu.here] at hnone
      cases hnone
    rw [hv.names, if_pos hname, hu.names]
  here := hv.here
  elsewhere := fun other hother => (hv.elsewhere other hother).trans (hu.elsewhere other hother)
  height := hv.height

/-- A column that fits leaves the height as it was wherever the height matters. -/
theorem Inserted.clashes (hu : Inserted t name values u) (hfits : ¬ t.Clashes name values)
    (h : t.Clashes name second) : u.Clashes name second := by
  obtain ⟨⟨other, hother, hne⟩, hlength⟩ := h
  have hvalues : values.length = t.height := by
    by_contra hmismatch
    exact hfits ⟨⟨other, hother, hne⟩, hmismatch⟩
  refine ⟨⟨other, hu.mem_names hother, hne⟩, ?_⟩
  rwa [hu.height, hvalues]

end FeatureTable.Table

namespace FeatureTable.ValidTable

open Table

variable (t : ValidTable) {u v : Table} {name : String} {values second : Column}

/-- The columns are counted where the law speaks of names: of distinct names, one is left over
exactly if there is another. -/
theorem others_pos_iff :
    0 < (if t.contains name then t.width - 1 else t.width) ↔ ∃ other ∈ t.names, other ≠ name := by
  have hwidth : t.width = t.names.length := (List.length_map Prod.fst).symm
  rw [hwidth]
  by_cases hname : name ∈ t.names
  · rw [if_pos (contains_iff.mpr hname), ← List.length_erase_of_mem hname,
      List.length_pos_iff_exists_mem]
    refine exists_congr fun other => ?_
    rw [t.valid.distinct.mem_erase_iff, and_comm]
  · rw [if_neg fun hcontains => hname (contains_iff.mp hcontains), List.length_pos_iff_exists_mem]
    refine exists_congr fun other => (and_iff_left_of_imp fun hother => ?_).symm
    exact fun heq => hname (heq ▸ hother)

theorem insert_of_clashes (h : t.Clashes name values) :
    t.insert name values = .error (.lengthMismatch name t.height values.length) :=
  if_pos ⟨t.others_pos_iff.mpr h.1, h.2⟩

theorem insert_of_not_clashes (h : ¬ t.Clashes name values) :
    t.insert name values = .ok (t.toTable.put name values) :=
  if_neg fun hmismatch => h ⟨t.others_pos_iff.mp hmismatch.1, hmismatch.2⟩

theorem inserted_put (h : ¬ t.Clashes name values) :
    Inserted t name values (t.toTable.put name values) := by
  have hhere : (t.toTable.put name values).column? name = some values := by
    rw [column?_put, if_pos rfl]
  have hlength := (t.inserted (t.insert_of_not_clashes h)).length_of_column? hhere
  refine ⟨(t.inserted (t.insert_of_not_clashes h)).valid, names_put t name values, hhere,
    fun other hother => ?_, hlength.symm⟩
  rw [column?_put, if_neg hother]

theorem insert_eq_ok_iff :
    t.insert name values = .ok u ↔ ¬ t.Clashes name values ∧ Inserted t name values u := by
  constructor
  · intro hu
    have hfits : ¬ t.Clashes name values := by
      intro hclashes
      rw [t.insert_of_clashes hclashes] at hu
      cases hu
    rw [t.insert_of_not_clashes hfits] at hu
    cases hu
    exact ⟨hfits, t.inserted_put hfits⟩
  · rintro ⟨hfits, hu⟩
    rw [t.insert_of_not_clashes hfits, (t.inserted_put hfits).unique hu]

theorem insert_eq_error_iff {fault : TableError} :
    t.insert name values = .error fault ↔
      t.Clashes name values ∧ fault = .lengthMismatch name t.height values.length := by
  by_cases hclashes : t.Clashes name values
  · rw [t.insert_of_clashes hclashes, Except.error.injEq, eq_comm, and_iff_right hclashes]
  · rw [t.insert_of_not_clashes hclashes]
    simp [hclashes]

theorem insert_insert (hu : t.insert name values = .ok u) (hv : u.insert name second = .ok v) :
    t.insert name second = .ok v := by
  obtain ⟨hfits, hinserted⟩ := t.insert_eq_ok_iff.mp hu
  obtain ⟨hfits', hagain⟩ := (t.inserted hu).insert_eq_ok_iff.mp hv
  exact t.insert_eq_ok_iff.mpr
    ⟨fun hclashes => hfits' (hinserted.clashes hfits hclashes), hinserted.again hagain⟩

end FeatureTable.ValidTable

namespace FeatureTable.Table

variable {t : Table}

/-- A column is refused exactly if it differs in length from one of another name, and the table
stays as it is.  Otherwise it takes the place of the column that has its name, or the last place.
Of two columns that are inserted, either may be the first if their names differ, and only the second
counts if they have one name. -/
theorem insert_updates (ht : t.Valid) (name : String) (values : Column) :
    (∀ fault after, Update.insert name values t = (.error fault, after) ↔
        t.Clashes name values ∧ fault = .lengthMismatch name t.height values.length ∧ after = t) ∧
      (¬ t.Clashes name values →
        ∃ u, Update.insert name values t = (.ok (), u) ∧ Inserted t name values u) ∧
      (∀ other second, other ≠ name → values.length = t.height → second.length = t.height →
        ∃ u v u' v', Update.insert name values t = (.ok (), u) ∧
          Update.insert other second u = (.ok (), v) ∧
          Update.insert other second t = (.ok (), u') ∧
          Update.insert name values u' = (.ok (), v') ∧ SameColumns v v') ∧
      ∀ second u v, Update.insert name values t = (.ok (), u) →
        Update.insert name second u = (.ok (), v) → Update.insert name second t = (.ok (), v) := by
  lift t to ValidTable using ht
  simp only [Update.insert_eq_ok_iff, Update.insert_eq_error_iff]
  refine ⟨fun fault after => ?_, fun hfits => ?_, fun other second hne hvalues hsecond => ?_,
    fun second u v => t.insert_insert⟩
  · rw [t.insert_eq_error_iff, and_assoc]
  · exact ⟨_, t.insert_of_not_clashes hfits, t.inserted_put hfits⟩
  · refine ⟨_, _, _, _, insert_of_length hvalues, insert_of_length ?_, insert_of_length hsecond,
      insert_of_length ?_, sameColumns_put_comm hne.symm t values second⟩
    · rw [height_put hvalues, hsecond]
    · rw [height_put hsecond, hvalues]

theorem insert_updates_only_column :
    (⟨[("A", [1, 2]), ("B", [3, 4])]⟩ : Table).Valid ∧
      (⟨[("A", [1, 2])]⟩ : Table).Valid ∧
      (⟨[("A", [1, 2]), ("B", [3, 4])]⟩ : Table).Clashes "A" [5] ∧
      Update.insert "A" [5] ⟨[("A", [1, 2]), ("B", [3, 4])]⟩ =
        (.error (.lengthMismatch "A" 2 1), ⟨[("A", [1, 2]), ("B", [3, 4])]⟩) ∧
      Update.insert "A" [6, 7, 8] ⟨[("A", [1, 2])]⟩ = (.ok (), ⟨[("A", [6, 7, 8])]⟩) := by
  have htwo : (⟨[("A", [1, 2]), ("B", [3, 4])]⟩ : Table).Valid :=
    ⟨by decide, by decide⟩
  have hone : (⟨[("A", [1, 2])]⟩ : Table).Valid := ⟨by decide, by decide⟩
  obtain ⟨hrefused, -⟩ := insert_updates htwo "A" [5]
  obtain ⟨-, -, -, hlast⟩ := insert_updates hone "A" [5]
  have hclashes : (⟨[("A", [1, 2]), ("B", [3, 4])]⟩ : Table).Clashes "A" [5] :=
    ⟨⟨"B", by decide, by decide⟩, by decide⟩
  exact ⟨htwo, hone, hclashes, (hrefused _ _).mpr ⟨hclashes, rfl, rfl⟩,
    hlast [6, 7, 8] ⟨[("A", [5])]⟩ _ rfl rfl⟩

end FeatureTable.Table
