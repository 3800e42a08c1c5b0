import FeatureTable.Proofs.Expression.Frame
import FeatureTable.Proofs.Feature.Run
import FeatureTable.Proofs.Table.Order

namespace FeatureTable

open Expression

/-- No definition reads its own target or the target of a later one. -/
def ReadsBackwards : List Definition → Prop
  | [] => True
  | d :: later =>
      (∀ e ∈ d :: later, ¬ Live (column e.target) d.expression) ∧ ReadsBackwards later

/-- A second run starts from columns that the first one has overwritten.  The two runs agree on
every column that is not overwritten from here on. -/
structure AgreesBefore (definitions : List Definition) (t u : ValidTable) : Prop where
  names : t.names = u.names
  column : ∀ name, (∀ d ∈ definitions, d.target ≠ name) → t.column? name = u.column? name

namespace AgreesBefore

variable {t u : ValidTable} {g : Table} {definitions : List Definition}

theorem eq (h : AgreesBefore [] t u) : t.toTable = u.toTable :=
  Table.SameColumns.eq (fun name => h.column name (by simp)) h.names

theorem outcome_evaluate {d : Definition} (h : AgreesBefore (d :: definitions) t u)
    (hreads : ReadsBackwards (d :: definitions)) :
    (d.expression.evaluate u).outcome = (d.expression.evaluate t).outcome := by
  apply outcome_evaluate_congr
  intro name hname
  refine (h.column name ?_).symm
  rintro e he rfl
  exact hreads.1 e he hname

theorem define {d : Definition} (h : AgreesBefore (d :: definitions) t u) {values : Column}
    (hleft : (d.expression.evaluate t).outcome = .ok values)
    (hright : (d.expression.evaluate u).outcome = .ok values) :
    AgreesBefore definitions (t.define d hleft) (u.define d hright) where
  names := by
    show (t.toTable.put d.target values).names = (u.toTable.put d.target values).names
    rw [Table.names_put, Table.names_put, h.names]
  column := by
    intro name hname
    show (t.toTable.put d.target values).column? name = (u.toTable.put d.target values).column? name
    rw [Table.column?_put, Table.column?_put]
    split
    · rfl
    · rename_i hne
      refine h.column name fun e he => ?_
      rcases List.mem_cons.mp he with rfl | hlater
      · exact Ne.symm hne
      · exact hname e hlater

theorem run (h : AgreesBefore definitions t u) (hreads : ReadsBackwards definitions)
    (hrun : (applyDefinitions t definitions).outcome = .ok g) :
    (applyDefinitions u definitions).outcome = .ok g := by
  induction definitions generalizing t u with
  | nil =>
      rw [← h.eq]
      exact hrun
  | cons d definitions ih =>
      have hsame := h.outcome_evaluate hreads
      cases hvalues : (d.expression.evaluate t).outcome with
      | error fault =>
          rw [outcome_applyDefinitions_of_error hvalues] at hrun
          cases hrun
      | ok values =>
          rw [outcome_applyDefinitions_of_ok hvalues] at hrun
          rw [outcome_applyDefinitions_of_ok (hsame.trans hvalues)]
          exact ih (h.define hvalues (hsame.trans hvalues)) hreads.2 hrun

end AgreesBefore

/-- What is selected again from the end of a run agrees with what the run started from. -/
theorem exists_select_of_applyDefinitions {t : Table} {s : ValidTable} {g : Table}
    {columns : List String} (h : Table.Projects t columns s) {definitions : List Definition}
    (hrun : (applyDefinitions s definitions).outcome = .ok g) :
    ∃ again : ValidTable, g.select columns = .ok again.toTable ∧
      AgreesBefore definitions s again := by
  have hnames : ∀ name ∈ columns, name ∈ g.names := by
    intro name hname
    apply (ValidTable.names_prefix_applied hrun).subset
    rwa [h.names, List.mem_eraseDups]
  have hpresent : (columns.find? fun name => !g.contains name) = none := by
    rw [List.find?_eq_none]
    intro name hname
    simp [Table.contains_iff.mpr (hnames name hname)]
  obtain ⟨again, hagain, hprojects⟩ := (s.applied hrun).select_eq_ok hpresent
  refine ⟨again, hagain, h.names.trans hprojects.names.symm, ?_⟩
  intro name hname
  by_cases hcolumn : name ∈ columns
  · rw [hprojects.column name hcolumn]
    exact (ValidTable.column?_applied hrun hname).symm
  · rw [h.column?_of_not_mem hcolumn, hprojects.column?_of_not_mem hcolumn]

theorem generate_generated {t : Table} (ht : t.Valid) (featureColumns : List String)
    (targetColumn : String) {definitions : List Definition} (hreads : ReadsBackwards definitions)
    {g : Table} (h : (generate t featureColumns targetColumn definitions).outcome = .ok g) :
    (generate g featureColumns targetColumn definitions).outcome = .ok g := by
  lift t to ValidTable using ht
  unfold generate at h ⊢
  rw [outcome_generateFrom] at h ⊢
  cases habsent : (featureColumns ++ [targetColumn]).find? fun name => !t.contains name with
  | some absent =>
      rw [t.select_eq_error habsent] at h
      cases h
  | none =>
      obtain ⟨selected, hselected, hprojects⟩ := t.select_eq_ok habsent
      rw [hselected] at h
      cases hrun : (applyDefinitions selected definitions).outcome with
      | error stop =>
          simp only [hrun] at h
          cases h
      | ok last =>
          simp only [hrun] at h
          cases h
          obtain ⟨again, hagain, hagrees⟩ := exists_select_of_applyDefinitions hprojects hrun
          rw [hagain]
          simp only [hagrees.run hreads hrun]
          rfl

theorem generate_generated_overwriting :
    (Table.mk [("a", [1, 2]), ("b", [3, 4]), ("c", [5, 6])]).Valid ∧
      ∃ definitions, definitions =
          [⟨"a", overTwo .multiply (column "b") (column "c") none⟩,
            ⟨"d", overTwo .add (column "a") (column "b") none⟩,
            ⟨"d", overTwo .apply (column "b") (column "d") (some .square)⟩] ∧
        ReadsBackwards definitions ∧
        ∃ g, (generate (Table.mk [("a", [1, 2]), ("b", [3, 4]), ("c", [5, 6])]) ["a", "b"] "c"
            definitions).outcome = .ok g ∧
          g.names = ["a", "b", "c", "d"] ∧
          (generate g ["a", "b"] "c" definitions).outcome = .ok g := by
  have ht : (Table.mk [("a", [1, 2]), ("b", [3, 4]), ("c", [5, 6])]).Valid :=
    ⟨by decide, by decide⟩
  have hreads : ReadsBackwards
      [⟨"a", overTwo .multiply (column "b") (column "c") none⟩,
        ⟨"d", overTwo .add (column "a") (column "b") none⟩,
        ⟨"d", overTwo .apply (column "b") (column "d") (some .square)⟩] := by
    simp [ReadsBackwards]
  exact ⟨ht, _, rfl, hreads, _, rfl, rfl, generate_generated ht ["a", "b"] "c" hreads rfl⟩

end FeatureTable
