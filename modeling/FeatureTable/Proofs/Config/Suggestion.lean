import FeatureTable.Feature.OfYaml
import FeatureTable.Proofs.Config.UnknownField

namespace FeatureTable.Config

open Yaml (Value)

/-!
A suggestion is of use where it is a known field.  One kind of suggestion is not: the table of slips
does not ask where the field stands, and may answer with a field that belongs elsewhere.
-/

variable {field suggestion : String} {known : List String}

/-- What the field is a slip for is not known here either. -/
def Misleading (known : List String) (field : String) : Prop :=
  field ∉ known ∧ ∃ meant, (field, meant) ∈ corrections ∧ meant ∉ known

/-- One key of a mapping is exchanged for another text. -/
def Renames (before after : List (Value × Value)) (field text : String)
    (first second : Value) : Prop :=
  ∃ key renamed value, key.untagged = .string field ∧ renamed.untagged = .string text ∧
    first.untagged = .mapping (before ++ (key, value) :: after) ∧
    second.untagged = .mapping (before ++ (renamed, value) :: after)

theorem suggest_of_mem_corrections {meant : String} (h : (field, meant) ∈ corrections)
    (known : List String) : suggest field known = some meant := by
  have hfirst : ∀ entry ∈ corrections, corrections.lookup entry.1 = some entry.2 := by decide
  rw [suggest, hfirst _ h, Option.some_or]

theorem mem_known_iff (hfield : field ∉ known) (h : suggest field known = some suggestion) :
    suggestion ∈ known ↔ ¬ Misleading known field := by
  have hsuggests := suggests_suggest known field
  rw [h] at hsuggests
  cases hsuggests with
  | slip hslip =>
      refine ⟨fun hmem => ?_, fun hclear => ?_⟩
      · rintro ⟨-, meant, hmeant, hunknown⟩
        cases h.symm.trans (suggest_of_mem_corrections hmeant known)
        exact hunknown hmem
      · by_contra hunknown
        exact hclear ⟨hfield, suggestion, hslip, hunknown⟩
  | near hclean hfirst =>
      refine iff_of_true (List.mem_of_getElem? hfirst.here) ?_
      rintro ⟨-, meant, hmeant, -⟩
      exact hclean meant hmeant

/-- The slips of the table that mislead, in its order. -/
def misleadingSlips (known : List String) : List String :=
  (corrections.filter fun slip => slip.1 ∉ known ∧ slip.2 ∉ known).map Prod.fst

theorem misleading_iff : Misleading known field ↔ field ∈ misleadingSlips known := by
  simp only [Misleading, misleadingSlips, List.mem_map, List.mem_filter, decide_eq_true_iff,
    Prod.exists]
  constructor
  · rintro ⟨hfield, meant, hmeant, hunknown⟩
    exact ⟨field, meant, ⟨hmeant, hfield, hunknown⟩, rfl⟩
  · rintro ⟨_, meant, ⟨hmeant, hfield, hunknown⟩, rfl⟩
    exact ⟨hfield, meant, hmeant, hunknown⟩

theorem misleadingSlips_plan : misleadingSlips FeaturePlan.fields =
    ["op", "operator", "source", "source_1", "source_2", "func", "fn", "name"] := by
  decide

theorem misleadingSlips_operation : misleadingSlips Expression.operationFields =
    ["feature_cols", "features", "target_column", "feature_engineering"] := by
  decide

theorem of_mem_unknownFields {v : Value} {u : UnknownField} (h : u ∈ unknownFields v known) :
    u.field ∉ known ∧ suggest u.field known = u.suggestion := by
  obtain ⟨⟨key, value⟩, -, hentry⟩ := List.mem_filterMap.mp h
  cases htext : key.asString? with
  | none => simp [htext] at hentry
  | some text =>
      simp only [htext] at hentry
      split_ifs at hentry with hknown
      cases hentry
      exact ⟨fun hmem => hknown (List.contains_iff_mem.mpr hmem), rfl⟩

theorem unknownFields_append (before after : List (Value × Value)) (known : List String) :
    unknownFields (.mapping (before ++ after)) known =
      unknownFields (.mapping before) known ++ unknownFields (.mapping after) known :=
  List.filterMap_append

theorem unknownFields_of_unknown {v key value : Value} {before after : List (Value × Value)}
    (hkey : key.untagged = .string field)
    (hv : v.untagged = .mapping (before ++ (key, value) :: after)) (hfield : field ∉ known) :
    unknownFields v known = unknownFields (.mapping before) known ++
      ⟨field, suggest field known⟩ :: unknownFields (.mapping after) known := by
  rw [unknownFields_of_untagged hv, unknownFields_append, unknownFields_cons_unknown hkey hfield]

theorem unknownFields_of_known {v key value : Value} {before after : List (Value × Value)}
    (hkey : key.untagged = .string field)
    (hv : v.untagged = .mapping (before ++ (key, value) :: after)) (hfield : field ∈ known) :
    unknownFields v known =
      unknownFields (.mapping before) known ++ unknownFields (.mapping after) known := by
  have hother : ∀ other, key.untagged = .string other → other ∈ known := by
    intro other h
    cases hkey.symm.trans h
    exact hfield
  rw [unknownFields_of_untagged hv, unknownFields_append, unknownFields_cons_other hother]

/-- Exactly the slips for a field that is not known get a suggestion that is of no use: the warning
stays when the key is renamed.  Plans and operations each have such slips. -/
theorem unknownFields_suggestion (known : List String) :
    (∀ v, ∀ u ∈ unknownFields v known, ∀ suggestion, u.suggestion = some suggestion →
      (suggestion ∈ known ↔ ¬ Misleading known u.field)) ∧
    (∀ before after field suggestion v v', Renames before after field suggestion v v' →
      field ∉ known → suggest field known = some suggestion →
      unknownFields v known = unknownFields (.mapping before) known ++
        ⟨field, some suggestion⟩ :: unknownFields (.mapping after) known ∧
      (¬ Misleading known field → unknownFields v' known =
        unknownFields (.mapping before) known ++ unknownFields (.mapping after) known) ∧
      (Misleading known field → unknownFields v' known = unknownFields (.mapping before) known ++
        ⟨suggestion, suggest suggestion known⟩ :: unknownFields (.mapping after) known)) ∧
    (∀ field, Misleading FeaturePlan.fields field ↔
      field ∈ ["op", "operator", "source", "source_1", "source_2", "func", "fn", "name"]) ∧
    ∀ field, Misleading Expression.operationFields field ↔
      field ∈ ["feature_cols", "features", "target_column", "feature_engineering"] := by
  refine ⟨fun v u hu suggestion hsuggestion => ?_, ?_, fun field => ?_, fun field => ?_⟩
  · obtain ⟨hfield, hsuggest⟩ := of_mem_unknownFields hu
    exact mem_known_iff hfield (hsuggest.trans hsuggestion)
  · intro before after field suggestion v v' hrenames hfield hsuggest
    obtain ⟨key, renamed, value, hkey, hrenamed, hv, hv'⟩ := hrenames
    have hmem := mem_known_iff hfield hsuggest
    refine ⟨?_, fun hclear => ?_, fun hmisleading => ?_⟩
    · rw [unknownFields_of_unknown hkey hv hfield, hsuggest]
    · exact unknownFields_of_known hrenamed hv' (hmem.mpr hclear)
    · exact unknownFields_of_unknown hrenamed hv' fun h => hmem.mp h hmisleading
  · rw [misleading_iff, misleadingSlips_plan]
  · rw [misleading_iff, misleadingSlips_operation]

/-- A plan with a slip for a field of its own and a slip for a field of its operations. -/
def slippedPlan (second : String) : Value :=
  .mapping ([(.string "features", .null)] ++ (.string second, .string "x") :: [])

theorem unknownFields_suggestion_slipped :
    Renames [(.string "features", .null)] [] "name" "target" (slippedPlan "name")
        (slippedPlan "target") ∧
      "feature_col" ∈ FeaturePlan.fields ∧ "target" ∉ FeaturePlan.fields ∧
      unknownFields (slippedPlan "name") FeaturePlan.fields =
        [⟨"features", some "feature_col"⟩, ⟨"name", some "target"⟩] ∧
      unknownFields (slippedPlan "target") FeaturePlan.fields =
        [⟨"features", some "feature_col"⟩, ⟨"target", none⟩] := by
  obtain ⟨husable, hrenaming, hplan, -⟩ := unknownFields_suggestion FeaturePlan.fields
  have hrenames : Renames [(.string "features", .null)] [] "name" "target" (slippedPlan "name")
      (slippedPlan "target") := ⟨_, _, _, rfl, rfl, rfl, rfl⟩
  have hname : Misleading FeaturePlan.fields "name" := (hplan "name").mpr (by decide)
  have hfeatures : ¬ Misleading FeaturePlan.fields "features" := fun h =>
    absurd ((hplan "features").mp h) (by decide)
  obtain ⟨hwarned, -, hrenamed⟩ :=
    hrenaming _ _ _ _ _ _ hrenames (by decide) (by decide +kernel)
  have hmem := husable (slippedPlan "name") ⟨"features", some "feature_col"⟩
    (by decide +kernel) "feature_col" rfl
  have hnot := husable (slippedPlan "name") ⟨"name", some "target"⟩ (by decide +kernel) "target" rfl
  refine ⟨hrenames, hmem.mpr hfeatures, fun h => hnot.mp h hname, ?_, ?_⟩
  · rw [hwarned]
    decide +kernel
  · rw [hrenamed hname]
    decide +kernel

/-- Both a plan and an operation can be told to use a field that they do not know. -/
theorem suggestion_unknown :
    unknownFields (.mapping [(.string "name", .string "x")]) FeaturePlan.fields =
        [⟨"name", some "target"⟩] ∧ "target" ∉ FeaturePlan.fields ∧
      unknownFields (.mapping [(.string "features", .string "x")]) Expression.operationFields =
        [⟨"features", some "feature_col"⟩] ∧ "feature_col" ∉ Expression.operationFields := by
  decide +kernel

end FeatureTable.Config
