import FeatureTable.Proofs.Feature.Run
import FeatureTable.Proofs.Table.Select

namespace FeatureTable

open Expression

/-- Two tables with the same names are run side by side.  `same` holds of an index in the one and an
index in the other whose rows agree. -/
structure Parallel (same : Nat → Nat → Prop) (t u : ValidTable) : Prop where
  names : t.names = u.names
  cells : ∀ i j, same i j → ∀ name, t.cell? name i = u.cell? name j

namespace Parallel

variable {same : Nat → Nat → Prop} {t u : ValidTable}

theorem contains (h : Parallel same t u) : t.contains = u.contains :=
  Table.contains_eq_of_mem_iff fun name => by rw [h.names]

theorem evaluate (h : Parallel same t u) (e : Expression) :
    (∃ fault, (e.evaluate t).outcome = .error fault ∧ (e.evaluate u).outcome = .error fault) ∨
      ∃ left right, (e.evaluate t).outcome = .ok left ∧ (e.evaluate u).outcome = .ok right ∧
        ∀ i j, same i j → left[i]? = right[j]? := by
  cases settled t e with
  | fails fault hfault houtcome =>
      refine Or.inl ⟨fault, houtcome, ?_⟩
      rw [outcome_evaluate_eq_error_iff, ← h.contains]
      exact hfault
  | succeeds left hfault houtcome hleft =>
      rw [h.contains, ← exists_outcome_evaluate_iff] at hfault
      obtain ⟨right, hright⟩ := hfault
      refine Or.inr ⟨left, right, houtcome, hright, ?_⟩
      intro i j hsame
      rw [hleft.cells, (tabulates_of_outcome hright).cells]
      congr 1
      funext name
      exact h.cells i j hsame name

theorem define (h : Parallel same t u) {d : Definition} {left right : Column}
    (hleft : (d.expression.evaluate t).outcome = .ok left)
    (hright : (d.expression.evaluate u).outcome = .ok right)
    (hcells : ∀ i j, same i j → left[i]? = right[j]?) :
    Parallel same (t.define d hleft) (u.define d hright) where
  names := by
    show (t.toTable.put d.target left).names = (u.toTable.put d.target right).names
    rw [Table.names_put, Table.names_put, h.names]
  cells := by
    intro i j hsame other
    show (t.toTable.put d.target left).cell? other i = (u.toTable.put d.target right).cell? other j
    rw [Table.cell?_put, Table.cell?_put, hcells i j hsame, h.cells i j hsame]

theorem run (h : Parallel same t u) (definitions : List Definition) :
    (∃ left right, (applyDefinitions t definitions).outcome = .error left ∧
        (applyDefinitions u definitions).outcome = .error right ∧
        left.failure = right.failure) ∨
      ∃ left right : ValidTable, (applyDefinitions t definitions).outcome = .ok left.toTable ∧
        (applyDefinitions u definitions).outcome = .ok right.toTable ∧
        Parallel same left right := by
  induction definitions generalizing t u with
  | nil => exact Or.inr ⟨t, u, rfl, rfl, h⟩
  | cons d definitions ih =>
      rcases h.evaluate d.expression with
        ⟨fault, hleft, hright⟩ | ⟨left, right, hleft, hright, hcells⟩
      · rw [outcome_applyDefinitions_of_error hleft, outcome_applyDefinitions_of_error hright]
        exact Or.inl ⟨_, _, rfl, rfl, rfl⟩
      · rw [outcome_applyDefinitions_of_ok hleft, outcome_applyDefinitions_of_ok hright]
        exact ih (h.define hleft hright hcells)

end Parallel

theorem parallel_select {t u : ValidTable} (hnames : ∀ name, name ∈ t.names ↔ name ∈ u.names)
    (columns : List String) :
    (∃ absent, t.select columns = .error (.columnNotFound absent) ∧
        u.select columns = .error (.columnNotFound absent)) ∨
      ∃ left right : ValidTable, t.select columns = .ok left.toTable ∧
        u.select columns = .ok right.toTable ∧
        (columns ≠ [] → left.height = t.height ∧ right.height = u.height) ∧
        Parallel (fun i j => ∀ name, t.cell? name i = u.cell? name j) left right := by
  have hcontains : t.contains = u.contains := Table.contains_eq_of_mem_iff hnames
  cases habsent : columns.find? fun name => !t.contains name with
  | some absent =>
      refine Or.inl ⟨absent, t.select_eq_error habsent, u.select_eq_error ?_⟩
      rwa [← hcontains]
  | none =>
      obtain ⟨left, hleft, hleftProjects⟩ := t.select_eq_ok habsent
      rw [hcontains] at habsent
      obtain ⟨right, hright, hrightProjects⟩ := u.select_eq_ok habsent
      refine Or.inr ⟨left, right, hleft, hright, ?_,
        hleftProjects.names.trans hrightProjects.names.symm, ?_⟩
      · exact fun hne => ⟨hleftProjects.height hne, hrightProjects.height hne⟩
      · intro i j hsame name
        rw [hleftProjects.cell?, hrightProjects.cell?, hsame]

/-- The rows of two tables agree under the names of the first. -/
def SameRow (t u : Table) (i j : Nat) : Prop :=
  ∀ name ∈ t.names, t.cell? name i = u.cell? name j

theorem SameRow.cell? {t u : Table} (hnames : ∀ name, name ∈ t.names ↔ name ∈ u.names) {i j : Nat}
    (h : SameRow t u i j) (name : String) : t.cell? name i = u.cell? name j := by
  by_cases hname : name ∈ t.names
  · exact h name hname
  · rw [Table.cell?_of_not_mem hname,
      Table.cell?_of_not_mem fun hother => hname ((hnames name).mpr hother)]

theorem parallel_generateFrom {t u : ValidTable}
    (hnames : ∀ name, name ∈ t.names ↔ name ∈ u.names) {columns : List String}
    (hcolumns : columns ≠ []) (definitions : List Definition) :
    (∃ failure, (generateFrom t columns definitions).outcome = .error failure ∧
        (generateFrom u columns definitions).outcome = .error failure) ∨
      ∃ left right : ValidTable, (generateFrom t columns definitions).outcome = .ok left.toTable ∧
        (generateFrom u columns definitions).outcome = .ok right.toTable ∧
        left.height = t.height ∧ right.height = u.height ∧
        Parallel (SameRow t u) left right := by
  rw [outcome_generateFrom, outcome_generateFrom]
  rcases parallel_select hnames columns with
    ⟨absent, hleft, hright⟩ | ⟨left, right, hleft, hright, hheights, hparallel⟩
  · rw [hleft, hright]
    exact Or.inl ⟨_, rfl, rfl⟩
  · rw [hleft, hright]
    obtain ⟨hleftHeight, hrightHeight⟩ := hheights hcolumns
    rcases hparallel.run definitions with
      ⟨leftStop, rightStop, hleftStop, hrightStop, hfailure⟩ |
        ⟨leftEnd, rightEnd, hleftEnd, hrightEnd, hend⟩
    · refine Or.inl ⟨leftStop.failure, ?_, ?_⟩
      · simp only [hleftStop]
        rfl
      · simp only [hrightStop, hfailure]
        rfl
    · refine Or.inr ⟨leftEnd, rightEnd, ?_, ?_, ?_, ?_, hend.names, ?_⟩
      · simp only [hleftEnd]
        rfl
      · simp only [hrightEnd]
        rfl
      · exact (ValidTable.height_applied hleftEnd).trans hleftHeight
      · exact (ValidTable.height_applied hrightEnd).trans hrightHeight
      · exact fun i j hsame => hend.cells i j (hsame.cell? hnames)

/-- A row of the features is settled by the same row of the input, and a failure by the names of its
columns. -/
theorem generate_row_local {t u : Table} (ht : t.Valid) (hu : u.Valid)
    (hnames : ∀ name, name ∈ t.names ↔ name ∈ u.names) (featureColumns : List String)
    (targetColumn : String) (definitions : List Definition) :
    (∀ failure, (generate t featureColumns targetColumn definitions).outcome = .error failure →
      (generate u featureColumns targetColumn definitions).outcome = .error failure) ∧
      ∀ f, (generate t featureColumns targetColumn definitions).outcome = .ok f →
        ∃ g, (generate u featureColumns targetColumn definitions).outcome = .ok g ∧
          f.names = g.names ∧
          ∀ i j, i < t.height → j < u.height → SameRow t u i j →
            ∃ row, f.rows[i]? = some row ∧ g.rows[j]? = some row := by
  lift t to ValidTable using ht
  lift u to ValidTable using hu
  unfold generate
  rcases parallel_generateFrom hnames
      (List.append_ne_nil_of_right_ne_nil featureColumns (List.cons_ne_nil targetColumn []))
      definitions with
    ⟨failure, hleft, hright⟩ | ⟨left, right, hleft, hright, hleftHeight, hrightHeight, hparallel⟩
  · rw [hleft, hright]
    exact ⟨fun _ h => h, fun _ h => (by cases h)⟩
  · rw [hleft, hright]
    refine ⟨fun _ h => (by cases h), fun f hf => ?_⟩
    cases hf
    refine ⟨right, rfl, hparallel.names, fun i j hi hj hsame => ?_⟩
    rw [← hleftHeight] at hi
    rw [← hrightHeight] at hj
    have hrow := left.row?_eq_rowAt hi
    have hrows : left.row? i = right.row? j :=
      ValidTable.row?_congr hparallel.names (hparallel.cells i j hsame)
    rw [left.getElem?_rows hi, right.getElem?_rows hj, ← hrows]
    exact ⟨_, hrow, hrow⟩

theorem generate_row_local_reordered :
    (Table.mk [("a", [1, 2]), ("b", [3, 4])]).Valid ∧ (Table.mk [("b", [4]), ("a", [2])]).Valid ∧
      ∃ f g row,
        (generate (Table.mk [("a", [1, 2]), ("b", [3, 4])]) ["a"] "b"
          [⟨"a", overTwo .multiply (column "a") (column "b") none⟩]).outcome = .ok f ∧
        (generate (Table.mk [("b", [4]), ("a", [2])]) ["a"] "b"
          [⟨"a", overTwo .multiply (column "a") (column "b") none⟩]).outcome = .ok g ∧
        f.rows[1]? = some row ∧ g.rows[0]? = some row := by
  have ht : (Table.mk [("a", [1, 2]), ("b", [3, 4])]).Valid := ⟨by decide, by decide⟩
  have hu : (Table.mk [("b", [4]), ("a", [2])]).Valid := ⟨by decide, by decide⟩
  have hnames : ∀ name, name ∈ (Table.mk [("a", [1, 2]), ("b", [3, 4])]).names ↔
      name ∈ (Table.mk [("b", [4]), ("a", [2])]).names := by
    intro name
    simp only [Table.names, List.map_cons, List.map_nil, List.mem_cons, List.not_mem_nil, or_false]
    exact or_comm
  have hsame : SameRow (Table.mk [("a", [1, 2]), ("b", [3, 4])])
      (Table.mk [("b", [4]), ("a", [2])]) 1 0 := by
    intro name hname
    simp only [Table.names, List.map_cons, List.map_nil, List.mem_cons, List.not_mem_nil,
      or_false] at hname
    rcases hname with rfl | rfl
    · exact Eq.trans (b := some 2) rfl rfl
    · exact Eq.trans (b := some 4) rfl rfl
  obtain ⟨-, hok⟩ := generate_row_local ht hu hnames ["a"] "b"
    [⟨"a", overTwo .multiply (column "a") (column "b") none⟩]
  have hf : (generate (Table.mk [("a", [1, 2]), ("b", [3, 4])]) ["a"] "b"
      [⟨"a", overTwo .multiply (column "a") (column "b") none⟩]).outcome =
        .ok (Table.mk [("a", [1 * 3, 2 * 4]), ("b", [3, 4])]) := rfl
  obtain ⟨g, hg, -, hrows⟩ := hok _ hf
  obtain ⟨row, hleft, hright⟩ := hrows 1 0 (by decide) (by decide) hsame
  exact ⟨ht, hu, _, g, row, hf, hg, hleft, hright⟩

end FeatureTable
