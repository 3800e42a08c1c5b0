import FeatureTable.Proofs.Expression.FunctionsFit
import FeatureTable.Proofs.Feature.Run
import FeatureTable.Proofs.Table.Select
import FeatureTable.Proofs.Traced

namespace FeatureTable

open Expression
open Yaml (Value)

theorem Definition.readOperation_of_ofYaml {v : Value} {d : Definition}
    (h : (Definition.ofYaml v).outcome = .ok d) :
    (readOperation v).outcome = .ok d.expression := by
  unfold Definition.ofYaml at h
  split at h
  · cases h
  · obtain ⟨target, -, h⟩ := Traced.exists_of_bind h
    split at h
    · cases h
    · obtain ⟨expression, hexpression, h⟩ := Traced.exists_of_bind h
      cases h
      exact Traced.exists_of_recover (fun e => ⟨e, rfl⟩) hexpression

theorem FeaturePlan.mapM_of_ofYaml {v : Value} {plan : FeaturePlan}
    (h : (FeaturePlan.ofYaml v).outcome = .ok plan) :
    ∃ items : List Value, (items.mapM Definition.ofYaml).outcome = .ok plan.definitions := by
  unfold FeaturePlan.ofYaml at h
  split at h
  · cases h
  · obtain ⟨-, -, h⟩ := Traced.exists_of_bind h
    obtain ⟨featureColumns, -, h⟩ := Traced.exists_of_bind h
    obtain ⟨targetColumn, -, h⟩ := Traced.exists_of_bind h
    obtain ⟨items, -, h⟩ := Traced.exists_of_bind h
    obtain ⟨definitions, hdefinitions, h⟩ := Traced.exists_of_bind h
    cases h
    exact ⟨items, hdefinitions⟩

theorem FeaturePlan.functionsFit_of_ofYaml {v : Value} {plan : FeaturePlan}
    (h : (FeaturePlan.ofYaml v).outcome = .ok plan) {d : Definition}
    (hd : d ∈ plan.definitions) : d.expression.FunctionsFit := by
  obtain ⟨items, hitems⟩ := FeaturePlan.mapM_of_ofYaml h
  obtain ⟨item, -, hitem⟩ := Traced.exists_of_mem_mapM hitems hd
  exact functionsFit_readOperation (Definition.readOperation_of_ofYaml hitem)

theorem exists_of_applyDefinitions (t : ValidTable) (definitions : List Definition) :
    (∃ u : ValidTable, (applyDefinitions t definitions).outcome = .ok u.toTable) ∨
      ∃ stop fault d, (applyDefinitions t definitions).outcome = .error stop ∧
        stop.table.Valid ∧ stop.failure = .evaluation fault ∧ d ∈ definitions ∧
        MayFail d.expression fault := by
  cases houtcome : (applyDefinitions t definitions).outcome with
  | ok u => exact Or.inl ⟨t.applied houtcome, rfl⟩
  | error stop =>
      obtain ⟨before, d, fault, hstops⟩ := ValidTable.exists_stopsAt houtcome
      obtain ⟨after, rfl⟩ := hstops.split
      have hfault := (outcome_evaluate_eq_error_iff (t := t.applied hstops.reached)).mp hstops.stops
      exact Or.inr ⟨stop, fault, d, rfl, (t.applied hstops.reached).valid, hstops.failure,
        by simp, mayFail_of_fault? hfault⟩

theorem exists_of_generateFrom (t : ValidTable) (columns : List String)
    (definitions : List Definition) :
    (∃ f : ValidTable, (generateFrom t columns definitions).outcome = .ok f.toTable) ∨
      (∃ name, (generateFrom t columns definitions).outcome =
        .error (.evaluation (.missingColumn name))) ∨
      ∃ fault d, (generateFrom t columns definitions).outcome = .error (.evaluation fault) ∧
        d ∈ definitions ∧ MayFail d.expression fault := by
  rw [outcome_generateFrom]
  cases habsent : columns.find? fun name => !t.contains name with
  | some absent =>
      rw [t.select_eq_error habsent]
      exact Or.inr (Or.inl ⟨absent, rfl⟩)
  | none =>
      obtain ⟨selected, hselected, -⟩ := t.select_eq_ok habsent
      rw [hselected]
      rcases exists_of_applyDefinitions selected definitions with
        ⟨u, hu⟩ | ⟨stop, fault, d, hstop, -, hfailure, hd, hmay⟩
      · refine Or.inl ⟨u, ?_⟩
        simp only [hu]
        rfl
      · refine Or.inr (Or.inr ⟨fault, d, ?_, hd, hmay⟩)
        simp only [hstop]
        exact congrArg Except.error hfailure

theorem outcome_generateFromYaml (t : Table) (v : Value) :
    (generateFromYaml t v).outcome =
      match (FeaturePlan.ofYaml v).outcome with
      | .error error => .error (.config error)
      | .ok plan => (generateFrom t plan.inputColumns plan.definitions).outcome := by
  unfold generateFromYaml
  rw [Traced.outcome_bind, Traced.outcome_mapError]
  cases (FeaturePlan.ofYaml v).outcome with
  | error error => rfl
  | ok plan => rfl

/-- Every way in which generating features over a valid table ends. -/
theorem generateFromYaml_ends {t : Table} (ht : t.Valid) (v : Value) :
    (∀ error, (FeaturePlan.ofYaml v).outcome = .error error →
      ∀ u, (generateFromYaml u v).outcome = .error (.config error)) ∧
    (∀ plan, (FeaturePlan.ofYaml v).outcome = .ok plan →
      (∃ f, (generateFromYaml t v).outcome = .ok f ∧ f.Valid) ∨
      (∃ name, (generateFromYaml t v).outcome = .error (.evaluation (.missingColumn name))) ∨
      ∃ operator, operator ≠ .apply ∧
        (generateFromYaml t v).outcome = .error (.evaluation (.missingOperand operator))) ∧
    ∀ definitions,
      (∃ u, (applyDefinitions t definitions).outcome = .ok u ∧ u.Valid) ∨
      ∃ stop, (applyDefinitions t definitions).outcome = .error stop ∧ stop.table.Valid ∧
        ((∃ name, stop.failure = .evaluation (.missingColumn name)) ∨
          (∃ operator, operator ≠ .apply ∧
            stop.failure = .evaluation (.missingOperand operator)) ∨
          stop.failure = .evaluation .missingFunction) := by
  lift t to ValidTable using ht
  refine ⟨?_, ?_, ?_⟩
  · intro error herror u
    rw [outcome_generateFromYaml, herror]
  · intro plan hplan
    rw [outcome_generateFromYaml, hplan]
    rcases exists_of_generateFrom t plan.inputColumns plan.definitions with
      ⟨f, hf⟩ | hmissing | ⟨fault, d, hfault, hd, hmay⟩
    · exact Or.inl ⟨f, hf, f.valid⟩
    · exact Or.inr (Or.inl hmissing)
    · cases hmay with
      | missingColumn name => exact Or.inr (Or.inl ⟨name, hfault⟩)
      | missingOperand hoperator => exact Or.inr (Or.inr ⟨_, hoperator, hfault⟩)
      | missingFunction hfits => exact absurd (FeaturePlan.functionsFit_of_ofYaml hplan hd) hfits
  · intro definitions
    rcases exists_of_applyDefinitions t definitions with
      ⟨u, hu⟩ | ⟨stop, fault, d, hstop, hvalid, hfailure, -, hmay⟩
    · exact Or.inl ⟨u, hu, u.valid⟩
    · refine Or.inr ⟨stop, hstop, hvalid, ?_⟩
      cases hmay with
      | missingColumn name => exact Or.inl ⟨name, hfailure⟩
      | missingOperand hoperator => exact Or.inr (Or.inl ⟨_, hoperator, hfailure⟩)
      | missingFunction => exact Or.inr (Or.inr hfailure)

theorem generateFromYaml_ends_sum :
    (Table.mk [("a", [1, 2]), ("b", [3, 4])]).Valid ∧
      (∀ u, (generateFromYaml u .null).outcome =
        .error (.config (Config.mismatch "generate_features" .mapping .null))) ∧
      ∃ v : Value, v = .mapping
          [(.string "feature_col", .sequence [.string "a"]), (.string "target_col", .string "b"),
            (.string "feature_eng", .sequence [.mapping
              [(.string "target", .string "c"), (.string "operation", .string "add"),
                (.string "source1", .string "a"), (.string "source2", .string "d")]])] ∧
        ((∃ f, (generateFromYaml (Table.mk [("a", [1, 2]), ("b", [3, 4])]) v).outcome = .ok f ∧
            f.Valid) ∨
          (∃ name, (generateFromYaml (Table.mk [("a", [1, 2]), ("b", [3, 4])]) v).outcome =
            .error (.evaluation (.missingColumn name))) ∨
          ∃ operator, operator ≠ .apply ∧
            (generateFromYaml (Table.mk [("a", [1, 2]), ("b", [3, 4])]) v).outcome =
              .error (.evaluation (.missingOperand operator))) := by
  have ht : (Table.mk [("a", [1, 2]), ("b", [3, 4])]).Valid := ⟨by decide, by decide⟩
  refine ⟨ht, (generateFromYaml_ends ht .null).1 _ rfl, _, rfl, ?_⟩
  have hoperation : (readOperation (.mapping
      [(.string "target", .string "c"), (.string "operation", .string "add"),
        (.string "source1", .string "a"), (.string "source2", .string "d")])).outcome =
      .ok (overTwo .add (column "a") (column "d") none) := by
    cbv
  have hdefinition : (Definition.ofYaml (.mapping
      [(.string "target", .string "c"), (.string "operation", .string "add"),
        (.string "source1", .string "a"), (.string "source2", .string "d")])).outcome =
      .ok ⟨"c", overTwo .add (column "a") (column "d") none⟩ := by
    show ((readOperation _).recover _ >>= fun _ => _).outcome = _
    rw [Traced.outcome_bind, Traced.outcome_recover, hoperation]
    rfl
  have hplan : (FeaturePlan.ofYaml (.mapping
      [(.string "feature_col", .sequence [.string "a"]), (.string "target_col", .string "b"),
        (.string "feature_eng", .sequence [.mapping
          [(.string "target", .string "c"), (.string "operation", .string "add"),
            (.string "source1", .string "a"), (.string "source2", .string "d")]])])).outcome =
      .ok ⟨["a"], "b", [⟨"c", overTwo .add (column "a") (column "d") none⟩]⟩ := by
    show (List.mapM Definition.ofYaml _ >>= fun _ => _).outcome = _
    rw [Traced.outcome_bind, List.mapM_cons, Traced.outcome_bind, hdefinition]
    rfl
  exact (generateFromYaml_ends ht _).2.1 _ hplan

end FeatureTable
