import FeatureTable.Proofs.Expression.Reading
import FeatureTable.Proofs.Feature.Grammar
import FeatureTable.Proofs.Text.Blank
import FeatureTable.Proofs.Traced

namespace FeatureTable

open Expression
open Yaml (Value)
open Yaml.Value (lookup?)

namespace Grammar

theorem outcome_readOperation_fields (v : Value) :
    (readOperation v).outcome = (readOperation (.mapping v.fields)).outcome := by
  rw [outcome_readOperation, outcome_readOperation]
  simp only [operatorOf, firstOf, secondOf, Config.getString, Value.field?_eq, Value.fields_mapping]

theorem outcome_readOperation_of_denotes {v : Value} {e : Expression}
    (h : Denotes (.mapping v.fields) e) : (readOperation v).outcome = .ok e := by
  have hread := outcome_readOperand_of_denotes h "source1"
  rwa [readOperand, ← outcome_readOperation_fields] at hread

def checkTarget (target : String) : Except ConfigError Unit :=
  if Text.isAllBlank target then .error .blankTarget else .ok ()

theorem outcome_definition_of_mapping {v : Value} {entries : List (Value × Value)}
    (h : v.untagged = .mapping entries) :
    (Definition.ofYaml v).outcome =
      Config.getString v "target" >>= fun target => checkTarget target >>= fun _ =>
        (readOperation v).outcome >>= fun expression => .ok { target, expression } := by
  have hread (target : String) (e : ConfigError) :
      (do Traced.record .error s!"Feature {target} could not be parsed: {e.message}"
          Traced.fail e : Traced ConfigError Expression).outcome = .error e := rfl
  unfold Definition.ofYaml
  rw [if_neg (by simp [Value.entries?_of_untagged h]), Traced.outcome_bind]
  refine bind_congr fun target => ?_
  unfold checkTarget
  split
  · rfl
  · rw [Traced.outcome_bind, Traced.outcome_recover]
    simp only [hread]
    cases (readOperation v).outcome <;> rfl

theorem outcome_definition_of_not_mapping {v : Value}
    (h : ∀ entries, v.untagged ≠ .mapping entries) :
    (Definition.ofYaml v).outcome = .error (Config.mismatch "feature_eng" .mapping v) := by
  unfold Definition.ofYaml
  rw [Value.entries?_eq_none h]
  rfl

theorem reports_checkTarget {entries : List (Value × Value)} {target : String}
    (h : lookup? "target" entries = some (.string target)) :
    Reports (fun _ => Text.trim target.toList ≠ []) (checkTarget target)
      (blankFaults entries) := by
  unfold checkTarget blankFaults
  simp only [h, Text.isAllBlank_iff]
  by_cases hblank : Text.trim target.toList = []
  · rw [if_pos hblank, if_pos hblank]
    exact .fails _ []
  · rw [if_neg hblank, if_neg hblank]
    exact .passes hblank

theorem reports_definition (v : Value) :
    Reports (DenotesDefinition v) (Definition.ofYaml v).outcome (definitionFaults v) := by
  unfold definitionFaults
  split
  · rename_i entries hentries
    obtain rfl := Value.fields_of_untagged hentries
    rw [outcome_definition_of_mapping hentries, List.append_assoc,
      ← List.append_nil (faults "feature_eng" (.mapping v.fields))]
    refine (Config.reports_getString v "target").bind fun target htarget => ?_
    refine (reports_checkTarget htarget).bind fun _ hvisible => ?_
    refine (reports_readOperation (operandsRead v) "feature_eng").bind fun e he => ?_
    exact .passes ⟨hentries, htarget, hvisible, he⟩
  · rename_i hother
    rw [outcome_definition_of_not_mapping hother]
    exact .fails _ []

theorem outcome_definition_of_denotes {v : Value} {d : Definition} (h : DenotesDefinition v d) :
    (Definition.ofYaml v).outcome = .ok d := by
  have hcheck : checkTarget d.target = .ok () :=
    if_neg fun hblank => h.visible (Text.isAllBlank_iff.mp hblank)
  rw [outcome_definition_of_mapping h.mapping, Config.getString_of_lookup? h.target]
  show (checkTarget d.target >>= fun _ => _) = _
  rw [hcheck]
  show ((readOperation v).outcome >>= fun _ => _) = _
  rw [outcome_readOperation_of_denotes h.operation]
  rfl

theorem outcome_plan_of_mapping {v : Value} {entries : List (Value × Value)}
    (h : v.untagged = .mapping entries) :
    (FeaturePlan.ofYaml v).outcome =
      Config.getStrings v "feature_col" >>= fun featureColumns =>
        Config.getString v "target_col" >>= fun targetColumn =>
          (Config.getList v "feature_eng" >>= fun items =>
            items.mapM fun item => (Definition.ofYaml item).outcome) >>= fun definitions =>
              .ok { featureColumns, targetColumn, definitions } := by
  unfold FeaturePlan.ofYaml
  rw [if_neg (by simp [Value.entries?_of_untagged h])]
  simp only [Traced.outcome_bind, outcome_warnUnknown, Traced.outcome_ofExcept, bind_assoc,
    Traced.outcome_mapM]
  rfl

theorem outcome_plan_of_not_mapping {v : Value}
    (h : ∀ entries, v.untagged ≠ .mapping entries) :
    (FeaturePlan.ofYaml v).outcome = .error (Config.mismatch "generate_features" .mapping v) := by
  unfold FeaturePlan.ofYaml
  rw [Value.entries?_eq_none h]
  rfl

theorem reports_plan (v : Value) :
    Reports (DenotesPlan v) (FeaturePlan.ofYaml v).outcome (planFaults v) := by
  unfold planFaults
  split
  · rename_i entries hentries
    obtain rfl := Value.fields_of_untagged hentries
    have hitems (items : List Value) :
        Reports (List.Forall₂ DenotesDefinition items)
          (items.mapM fun item => (Definition.ofYaml item).outcome)
          (items.flatMap definitionFaults) :=
      .mapM fun item _ => reports_definition item
    rw [outcome_plan_of_mapping hentries, List.append_assoc,
      ← List.append_nil (Config.listFaults "feature_eng" _ _)]
    refine (Config.reports_getStrings v "feature_col").bind fun names hnames => ?_
    refine (Config.reports_getString v "target_col").bind fun name hname => ?_
    refine (Config.reports_getList hitems v "feature_eng").bind fun definitions hdefinitions => ?_
    exact .passes ⟨hentries, hnames, hname, hdefinitions⟩
  · rename_i hother
    rw [outcome_plan_of_not_mapping hother]
    exact .fails _ []

theorem mapM_of_denotes {items : List Value} {definitions : List Definition}
    (h : List.Forall₂ DenotesDefinition items definitions) :
    (items.mapM fun item => (Definition.ofYaml item).outcome) = .ok definitions := by
  induction h with
  | nil => rfl
  | cons hd _ ih =>
      rw [List.mapM_cons, outcome_definition_of_denotes hd, ih]
      rfl

theorem outcome_plan_of_denotes {v : Value} {plan : FeaturePlan} (h : DenotesPlan v plan) :
    (FeaturePlan.ofYaml v).outcome = .ok plan := by
  obtain ⟨items, hitems, hdefinitions⟩ := h.definitions
  rw [outcome_plan_of_mapping h.mapping, Config.getStrings_of_lookup? h.features,
    Config.getString_of_lookup? h.target, Config.getList_of_lookup? hitems]
  show ((items.mapM fun item => (Definition.ofYaml item).outcome) >>= fun _ => _) = _
  rw [mapM_of_denotes hdefinitions]
  rfl

end Grammar

namespace FeaturePlan

open Grammar

/-- Reading accepts the grammar, gives what a value stands for and otherwise reports the first
fault.  Whatever else is wrong, an item of the features that is not a text is reported under its
place. -/
theorem outcome_ofYaml_plan_grammar (v : Value) :
    ((∃ plan, (ofYaml v).outcome = .ok plan) ↔ AcceptsPlan v) ∧
      (∀ plan, (ofYaml v).outcome = .ok plan ↔ DenotesPlan v plan) ∧
      (∀ fault, (ofYaml v).outcome = .error fault ↔ (planFaults v).head? = some fault) ∧
      ∀ entries names other later, v.untagged = .mapping entries →
        lookup? "feature_col" entries =
            some (.sequence (List.map .string names ++ other :: later)) →
        (∀ name, other ≠ .string name) →
        ∃ place : Place, place.name = s!"feature_col[{names.length}]" ∧
          (ofYaml v).outcome = .error (.typeMismatch place .string other.kind) := by
  have hok : ∀ plan, (ofYaml v).outcome = .ok plan ↔ DenotesPlan v plan := fun plan =>
    ⟨(reports_plan v).good, outcome_plan_of_denotes⟩
  have herror : ∀ fault, (ofYaml v).outcome = .error fault ↔ (planFaults v).head? = some fault :=
    fun fault => (reports_plan v).eq_error_iff
  refine ⟨?_, hok, herror, ?_⟩
  · rw [acceptsPlan_iff]
    exact exists_congr hok
  · intro entries names other later hentries hfeatures hother
    refine ⟨⟨"feature_col", some names.length⟩, rfl, ?_⟩
    have hhead := Config.head?_itemFaults "feature_col" 0 names hother later
    rw [herror, planFaults, hentries]
    simp only [Config.listFaults, hfeatures, List.append_assoc, List.head?_append, hhead,
      Option.some_or, Nat.zero_add]

theorem outcome_ofYaml_plan_grammar_many_faults :
    ∃ v, v = .tagged "plan" (.mapping
          [(.string "feature_eng", .sequence [.tagged "item" (.mapping
              [(.string "operation", .string "power"), (.string "target", .string " ")])]),
            (.string "feature_col", .sequence [.string "a", .tagged "b" (.string "b"), .null])]) ∧
      (planFaults v).head? = some (.typeMismatch ⟨"feature_col", some 1⟩ .string .tagged) ∧
      (ofYaml v).outcome = .error (.typeMismatch ⟨"feature_col", some 1⟩ .string .tagged) := by
  have hhead : (planFaults (.tagged "plan" (.mapping
        [(.string "feature_eng", .sequence [.tagged "item" (.mapping
            [(.string "operation", .string "power"), (.string "target", .string " ")])]),
          (.string "feature_col",
            .sequence [.string "a", .tagged "b" (.string "b"), .null])]))).head? =
      some (.typeMismatch ⟨"feature_col", some 1⟩ .string .tagged) := rfl
  exact ⟨_, rfl, hhead, ((outcome_ofYaml_plan_grammar _).2.2.1 _).mpr hhead⟩

end FeaturePlan

end FeatureTable
