import FeatureTable.Proofs.Feature.Run
import FeatureTable.Proofs.Table.Select
import FeatureTable.Proofs.Traced

namespace FeatureTable

open Expression

theorem applyDefinitions_append (t : Table) (first second : List Definition) :
    applyDefinitions t (first ++ second) =
      applyDefinitions t first >>= fun u => applyDefinitions u second := by
  induction first generalizing t with
  | nil => rw [List.nil_append, applyDefinitions, pure_bind]
  | cons d first ih =>
      rw [List.cons_append, applyDefinitions, applyDefinitions, bind_assoc]
      refine bind_congr fun next => ?_
      rw [bind_assoc]
      exact bind_congr fun _ => ih next

theorem exists_of_applyDefinitions_append {t : ValidTable} {u : Table}
    {before after : List Definition} {d : Definition}
    (h : (applyDefinitions t (before ++ d :: after)).outcome = .ok u) :
    ∃ (s : ValidTable) (values : Column), (applyDefinitions t before).outcome = .ok s.toTable ∧
      ∃ hvalues : (d.expression.evaluate s).outcome = .ok values,
        (applyDefinitions (s.define d hvalues) after).outcome = .ok u := by
  rw [applyDefinitions_append] at h
  obtain ⟨reached, hs, hrest⟩ := Traced.exists_of_bind h
  obtain ⟨s, rfl⟩ : ∃ s : ValidTable, s.toTable = reached := ⟨t.applied hs, rfl⟩
  cases hvalues : (d.expression.evaluate s).outcome with
  | error fault =>
      rw [outcome_applyDefinitions_of_error hvalues] at hrest
      cases hrest
  | ok values =>
      rw [outcome_applyDefinitions_of_ok hvalues] at hrest
      exact ⟨s, values, hs, hvalues, hrest⟩

theorem removeAll_eraseDups (names chosen : List String) :
    names.removeAll chosen.eraseDups = names.removeAll chosen := by
  unfold List.removeAll
  apply List.filter_congr
  intro name _
  simp

theorem names_of_applyDefinitions {t : ValidTable} {u : Table} {definitions : List Definition}
    (h : (applyDefinitions t definitions).outcome = .ok u) :
    u.names = (t.names ++ definitions.map Definition.target).eraseDups := by
  have hrun := run_keeps
    (fun done u => u.names = (t.names ++ done.map Definition.target).eraseDups)
    (fun done u d values hu _ => by
      refine (Table.names_put u d.target values).trans ?_
      rw [List.map_append, List.map_singleton, ← List.append_assoc, Table.eraseDups_concat, hu]
      simp only [List.mem_eraseDups])
    [] (by rw [List.map_nil, List.append_nil, Table.eraseDups_of_nodup t.valid.distinct])
    definitions
  obtain ⟨_, hnames⟩ := hrun.1 u h
  exact hnames

/-- What a run over some definitions has made of a table. -/
structure Effect (t : Table) (done : List Definition) (u : Table) : Prop where
  reached : (applyDefinitions t done).outcome = .ok u
  valid : u.Valid
  names : u.names = t.names ++ ((done.map Definition.target).removeAll t.names).eraseDups
  height : u.height = t.height
  kept : ∀ name, (∀ d ∈ done, d.target ≠ name) → u.column? name = t.column? name
  /-- The last definition of a target gives the column. -/
  defined : ∀ before d after, done = before ++ d :: after →
    ∃ s values, (applyDefinitions t before).outcome = .ok s ∧
      (d.expression.evaluate s).outcome = .ok values ∧
      ((∀ later ∈ after, later.target ≠ d.target) → u.column? d.target = some values)

theorem effect_of_applyDefinitions {t : ValidTable} {u : Table} {done : List Definition}
    (h : (applyDefinitions t done).outcome = .ok u) : Effect t done u where
  reached := h
  valid := (t.applied h).valid
  names := by
    rw [names_of_applyDefinitions h, List.eraseDups_append,
      Table.eraseDups_of_nodup t.valid.distinct]
  height := ValidTable.height_applied h
  kept := fun _ hname => ValidTable.column?_applied h hname
  defined := by
    rintro before d after rfl
    obtain ⟨s, values, hreached, hvalues, hrest⟩ := exists_of_applyDefinitions_append h
    refine ⟨s, values, hreached, hvalues, fun hlast => ?_⟩
    rw [ValidTable.column?_applied hrest hlast]
    exact (Table.column?_put s d.target d.target values).trans (if_pos rfl)

theorem names_of_generate {t : ValidTable} {g : Table} {featureColumns : List String}
    {targetColumn : String} {definitions : List Definition}
    (h : (generate t featureColumns targetColumn definitions).outcome = .ok g) :
    g.names =
      (featureColumns ++ [targetColumn] ++ definitions.map Definition.target).eraseDups := by
  unfold generate at h
  rw [outcome_generateFrom] at h
  cases habsent : (featureColumns ++ [targetColumn]).find? fun name => !t.contains name with
  | some absent =>
      rw [t.select_eq_error habsent] at h
      cases h
  | none =>
      obtain ⟨selected, hselected, hprojects⟩ := t.select_eq_ok habsent
      rw [hselected] at h
      cases hrun : (applyDefinitions selected definitions).outcome with
      | error stop =>
          simp only [hrun] at h
          cases h
      | ok last =>
          simp only [hrun] at h
          cases h
          rw [(effect_of_applyDefinitions hrun).names, List.eraseDups_append, hprojects.names,
            removeAll_eraseDups]

theorem generate_of_absent {t : ValidTable} {featureColumns : List String}
    {targetColumn absent : String}
    (habsent : ((featureColumns ++ [targetColumn]).find? fun name => !t.contains name) =
      some absent) (definitions : List Definition) :
    generate t featureColumns targetColumn definitions =
      Traced.fail (.evaluation (.missingColumn absent)) := by
  unfold generate generateFrom
  rw [t.select_eq_error habsent]
  rfl

/-- Some first definitions take effect, and all the others none. -/
theorem applyDefinitions_effect {t : Table} (ht : t.Valid) :
    (∀ definitions, ∃ k u, Effect t (definitions.take k) u ∧
      (k = definitions.length ∧ (applyDefinitions t definitions).outcome = .ok u ∨
        ∃ d fault, definitions[k]? = some d ∧
          (d.expression.evaluate u).outcome = .error fault ∧
          (applyDefinitions t definitions).outcome = .error ⟨u, .evaluation fault⟩)) ∧
    ∀ featureColumns targetColumn definitions,
      (∀ g, (generate t featureColumns targetColumn definitions).outcome = .ok g →
        g.names =
          (featureColumns ++ [targetColumn] ++ definitions.map Definition.target).eraseDups) ∧
      ∀ absent, ((featureColumns ++ [targetColumn]).find? fun name => !t.contains name) =
          some absent →
        generate t featureColumns targetColumn definitions =
          Traced.fail (.evaluation (.missingColumn absent)) := by
  lift t to ValidTable using ht
  refine ⟨fun definitions => ?_, fun featureColumns targetColumn definitions =>
    ⟨fun g hg => names_of_generate hg, fun absent habsent =>
      generate_of_absent habsent definitions⟩⟩
  cases houtcome : (applyDefinitions t definitions).outcome with
  | ok u =>
      refine ⟨definitions.length, u, ?_, .inl ⟨rfl, rfl⟩⟩
      rw [List.take_length]
      exact effect_of_applyDefinitions houtcome
  | error stop =>
      obtain ⟨before, d, fault, hstops⟩ := ValidTable.exists_stopsAt houtcome
      obtain ⟨after, rfl⟩ := hstops.split
      refine ⟨before.length, stop.table, ?_, .inr ⟨d, fault, ?_, hstops.stops, ?_⟩⟩
      · rw [List.take_left]
        exact effect_of_applyDefinitions hstops.reached
      · simp
      · rw [← hstops.failure]

theorem applyDefinitions_effect_interrupted :
    (Table.mk [("a", [1, 2]), ("b", [3, 4])]).Valid ∧
      ∃ definitions, definitions =
          [⟨"d", overTwo .add (column "a") (column "b") none⟩,
            ⟨"a", overTwo .multiply (column "a") (column "d") none⟩,
            ⟨"d", overTwo .subtract (column "d") (column "a") none⟩,
            ⟨"b", overTwo .add (column "a") (column "e") none⟩,
            ⟨"f", column "a"⟩] ∧
        (∃ k u, Effect (Table.mk [("a", [1, 2]), ("b", [3, 4])]) (definitions.take k) u ∧
          (k = definitions.length ∧
              (applyDefinitions (Table.mk [("a", [1, 2]), ("b", [3, 4])]) definitions).outcome =
                .ok u ∨
            ∃ d fault, definitions[k]? = some d ∧
              (d.expression.evaluate u).outcome = .error fault ∧
              (applyDefinitions (Table.mk [("a", [1, 2]), ("b", [3, 4])]) definitions).outcome =
                .error ⟨u, .evaluation fault⟩)) ∧
        (∃ u, (applyDefinitions (Table.mk [("a", [1, 2]), ("b", [3, 4])]) definitions).outcome =
            .error ⟨u, .evaluation (.missingOperand .add)⟩ ∧ u.names = ["a", "b", "d"]) ∧
        generate (Table.mk [("a", [1, 2]), ("b", [3, 4])]) ["b", "y"] "z" definitions =
          Traced.fail (.evaluation (.missingColumn "y")) := by
  have ht : (Table.mk [("a", [1, 2]), ("b", [3, 4])]).Valid := ⟨by decide, by decide⟩
  obtain ⟨hrun, hgenerate⟩ := applyDefinitions_effect ht
  exact ⟨ht, _, rfl, hrun _, ⟨_, rfl, rfl⟩, (hgenerate ["b", "y"] "z" _).2 "y" (by decide)⟩

end FeatureTable
