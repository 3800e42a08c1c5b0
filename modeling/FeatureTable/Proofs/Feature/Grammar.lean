import FeatureTable.Feature.OfYaml
import FeatureTable.Proofs.Config.Field

namespace FeatureTable.Grammar

open Yaml (Value)
open Yaml.Value (lookup?)

/-! The values that stand for definitions and plans.  Tags around a definition and around a plan do
not count; everything else that is read has none. -/

structure AcceptsDefinition (v : Value) : Prop where
  mapping : v.untagged = .mapping v.fields
  target : ∃ target, lookup? "target" v.fields = some (.string target) ∧
    Text.trim target.toList ≠ []
  operation : Accepts (.mapping v.fields)

structure AcceptsPlan (v : Value) : Prop where
  mapping : v.untagged = .mapping v.fields
  features : ∃ names : List String,
    lookup? "feature_col" v.fields = some (.sequence (names.map .string))
  target : ∃ name, lookup? "target_col" v.fields = some (.string name)
  definitions : ∃ items, lookup? "feature_eng" v.fields = some (.sequence items) ∧
    ∀ item ∈ items, AcceptsDefinition item

structure DenotesDefinition (v : Value) (d : Definition) : Prop where
  mapping : v.untagged = .mapping v.fields
  target : lookup? "target" v.fields = some (.string d.target)
  visible : Text.trim d.target.toList ≠ []
  operation : Denotes (.mapping v.fields) d.expression

structure DenotesPlan (v : Value) (plan : FeaturePlan) : Prop where
  mapping : v.untagged = .mapping v.fields
  features : lookup? "feature_col" v.fields = some (.sequence (plan.featureColumns.map .string))
  target : lookup? "target_col" v.fields = some (.string plan.targetColumn)
  definitions : ∃ items, lookup? "feature_eng" v.fields = some (.sequence items) ∧
    List.Forall₂ DenotesDefinition items plan.definitions

theorem acceptsDefinition_iff {v : Value} : AcceptsDefinition v ↔ ∃ d, DenotesDefinition v d := by
  constructor
  · rintro ⟨hmapping, ⟨target, htarget, hvisible⟩, hoperation⟩
    obtain ⟨e, he⟩ := accepts_iff.mp hoperation
    exact ⟨⟨target, e⟩, hmapping, htarget, hvisible, he⟩
  · rintro ⟨d, hmapping, htarget, hvisible, hoperation⟩
    exact ⟨hmapping, ⟨d.target, htarget, hvisible⟩, accepts_of_denotes hoperation⟩

theorem exists_definitions {items : List Value} :
    (∃ definitions, List.Forall₂ DenotesDefinition items definitions) ↔
      ∀ item ∈ items, AcceptsDefinition item := by
  constructor
  · rintro ⟨definitions, h⟩ item hitem
    induction h with
    | nil => cases hitem
    | cons hd _ ih =>
        rcases List.mem_cons.mp hitem with rfl | hlater
        · exact acceptsDefinition_iff.mpr ⟨_, hd⟩
        · exact ih hlater
  · intro h
    induction items with
    | nil => exact ⟨[], .nil⟩
    | cons item items ih =>
        obtain ⟨d, hd⟩ := acceptsDefinition_iff.mp (h item List.mem_cons_self)
        obtain ⟨definitions, hrest⟩ :=
          ih fun other hother => h other (List.mem_cons_of_mem _ hother)
        exact ⟨d :: definitions, .cons hd hrest⟩

theorem acceptsPlan_iff {v : Value} : AcceptsPlan v ↔ ∃ plan, DenotesPlan v plan := by
  constructor
  · rintro ⟨hmapping, ⟨names, hnames⟩, ⟨name, hname⟩, items, hitems, haccepts⟩
    obtain ⟨definitions, hdefinitions⟩ := exists_definitions.mpr haccepts
    exact ⟨⟨names, name, definitions⟩, hmapping, hnames, hname, items, hitems, hdefinitions⟩
  · rintro ⟨plan, hmapping, hnames, hname, items, hitems, hdefinitions⟩
    exact ⟨hmapping, ⟨_, hnames⟩, ⟨_, hname⟩, items, hitems,
      exists_definitions.mp ⟨_, hdefinitions⟩⟩

def blankFaults (entries : List (Value × Value)) : List ConfigError :=
  match lookup? "target" entries with
  | some (.string target) => if Text.trim target.toList = [] then [.blankTarget] else []
  | _ => []

def definitionFaults (v : Value) : List ConfigError :=
  match v.untagged with
  | .mapping entries =>
      Config.textFaults "target" entries ++ blankFaults entries ++
        faults "feature_eng" (.mapping entries)
  | _ => [Config.mismatch "feature_eng" .mapping v]

def planFaults (v : Value) : List ConfigError :=
  match v.untagged with
  | .mapping entries =>
      Config.listFaults "feature_col" (Config.itemFaults "feature_col" 0) entries ++
        Config.textFaults "target_col" entries ++
        Config.listFaults "feature_eng" (fun items => items.flatMap definitionFaults) entries
  | _ => [Config.mismatch "generate_features" .mapping v]

end FeatureTable.Grammar
