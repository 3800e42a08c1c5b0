import FeatureTable.Proofs.Expression.Reading
import FeatureTable.Proofs.Feature.Edit
import FeatureTable.Proofs.Traced

namespace FeatureTable

open Expression
open Yaml (Value)
open Yaml.Value (lookup?)

namespace Similar

variable {role : Role} {v w : Value}

theorem kind (h : Similar role v w) : v.kind = w.kind := by
  cases h <;> rfl

theorem untagged (hinside : role.inside = role) :
    ∀ {v w : Value}, Similar role v w → Similar role v.untagged w.untagged
  | _, _, .refl _ _ => .refl _ _
  | _, _, .mapping hpresent hvalue => .mapping hpresent hvalue
  | _, _, .sequence hlength hitem => .sequence hlength hitem
  | .tagged _ v, .tagged _ w, .tagged h => by
      rw [hinside] at h
      exact untagged hinside (v := v) (w := w) h

theorem fields_or_not (hinside : role.inside = role) (h : Similar role v w) :
    (∃ entries entries', v.untagged = .mapping entries ∧ w.untagged = .mapping entries' ∧
        SimilarFields role entries entries') ∨
      (∀ entries, v.untagged ≠ .mapping entries) ∧ ∀ entries, w.untagged ≠ .mapping entries := by
  have huntagged := h.untagged hinside
  cases hv : v.untagged with
  | mapping entries =>
      rw [hv] at huntagged
      obtain ⟨entries', hw, hfields⟩ := huntagged.fields
      exact .inl ⟨entries, entries', rfl, hw, hfields⟩
  | _ =>
      refine .inr ⟨by simp, fun entries hw => ?_⟩
      have hkind := huntagged.kind
      rw [hv, hw] at hkind
      cases hkind

theorem items {items : List Value} (h : Similar role (.sequence items) w) :
    ∃ items', w = .sequence items' ∧ List.Forall₂ (Similar role.item) items items' := by
  cases h with
  | refl => exact ⟨items, rfl, List.forall₂_same.mpr fun v _ => .refl _ v⟩
  | @sequence _ _ items' hlength hitem =>
      exact ⟨items', rfl, List.forall₂_iff_get.mpr ⟨hlength, hitem⟩⟩

theorem getString_eq {name : String}
    (h : Option.Rel (Similar role) (v.field? name) (w.field? name)) :
    Config.getString v name = Config.getString w name := by
  unfold Config.getString
  generalize v.field? name = left, w.field? name = right at h ⊢
  cases h with
  | none => rfl
  | some h => cases h <;> rfl

theorem getList_eq {name : String}
    (h : Option.Rel (Similar role) (v.field? name) (w.field? name)) :
    (∃ items items', Config.getList v name = .ok items ∧ Config.getList w name = .ok items' ∧
        List.Forall₂ (Similar role.item) items items') ∨
      ∃ fault, Config.getList v name = .error fault ∧ Config.getList w name = .error fault := by
  unfold Config.getList
  generalize v.field? name = left, w.field? name = right at h ⊢
  cases h with
  | none => exact .inr ⟨_, rfl, rfl⟩
  | @some left right h =>
      cases left with
      | sequence items =>
          obtain ⟨items', rfl, hitems⟩ := h.items
          exact .inl ⟨items, items', rfl, rfl, hitems⟩
      | _ => cases h <;> exact .inr ⟨_, rfl, rfl⟩

theorem stringItems_eq {items items' : List Value}
    (h : List.Forall₂ (Similar role) items items') (field : String) (first : Nat) :
    Config.stringItems field first items = Config.stringItems field first items' := by
  induction h generalizing first with
  | nil => rfl
  | @cons item _ _ _ hitem _ ih =>
      cases hitem with
      | refl =>
          cases item with
          | string text => rw [Config.stringItems, Config.stringItems, ih]
          | _ => rfl
      | _ => rfl

theorem getStrings_eq {name : String}
    (h : Option.Rel (Similar role) (v.field? name) (w.field? name)) :
    Config.getStrings v name = Config.getStrings w name := by
  unfold Config.getStrings
  rcases getList_eq h with ⟨items, items', hv, hw, hitems⟩ | ⟨fault, hv, hw⟩
  · rw [hv, hw]
    exact stringItems_eq hitems name 0
  · rw [hv, hw]

theorem readFunction_eq {function function' : Option Value}
    (h : Option.Rel (Similar role) function function') :
    readFunction .apply function = readFunction .apply function' := by
  cases h with
  | none => rfl
  | some h => cases h <;> rfl

end Similar

namespace Expression

theorem withoutWarnings_warnUnknown (v : Value) (known : List String) (context : String) :
    (warnUnknown v known context : Traced ε Unit).withoutWarnings = pure () := by
  refine Traced.ext rfl ?_
  show List.filter _ (List.map _ _) = []
  rw [List.filter_map, List.map_eq_nil_iff, List.filter_eq_nil_iff]
  simp

theorem withoutWarnings_readFunction {operator : Operator} (hne : operator ≠ .apply)
    (function : Option Value) :
    (readFunction operator function).withoutWarnings = pure none := by
  cases operator with
  | apply => exact absurd rfl hne
  | multiply | subtract | divide | add => cases function <;> rfl

theorem name_of_readOperator {name : String} {operator : Operator}
    (h : (readOperator name).outcome = .ok operator) : name = operator.name := by
  unfold readOperator at h
  cases hname : Operator.ofName? name with
  | none =>
      rw [hname] at h
      cases h
  | some other =>
      rw [hname] at h
      cases h
      exact (Operator.name_of_ofName? hname).symm

def OperandsAlike (v : Value) : Prop :=
  ∀ name first second, v.field? name = some first → Similar .operand first second →
    ∀ field, (readOperand field first).withoutWarnings = (readOperand field second).withoutWarnings

theorem readFirst_alike {v w : Value} (hoperands : OperandsAlike v)
    (h : Option.Rel (Similar .operand) (v.field? "source1") (w.field? "source1")) :
    (readFirst v).withoutWarnings = (readFirst w).withoutWarnings := by
  unfold readFirst
  generalize hv : v.field? "source1" = left, w.field? "source1" = right at h ⊢
  cases h with
  | none => rfl
  | some h => exact hoperands _ _ _ hv h _

theorem readSecond_alike {v w : Value} (hoperands : OperandsAlike v)
    (h : Option.Rel (Similar .operand) (v.field? "source2") (w.field? "source2")) :
    (readSecond v).withoutWarnings = (readSecond w).withoutWarnings := by
  unfold readSecond
  generalize hv : v.field? "source2" = left, w.field? "source2" = right at h ⊢
  cases h with
  | none => rfl
  | some h =>
      refine Traced.withoutWarnings_bind_congr (hoperands _ _ _ hv h _) fun _ _ => ?_
      rfl

def HoldsOperation (role : Role) : Prop :=
  ["operation", "source1", "source2", "function"] ⊆ role.fields ∧
    role.under "source1" = .operand ∧ role.under "source2" = .operand

theorem holdsOperation_operand : HoldsOperation .operand :=
  ⟨by simp [Role.fields], rfl, rfl⟩

theorem holdsOperation_definition : HoldsOperation .definition :=
  ⟨by simp [Role.fields], rfl, rfl⟩

theorem readOperation_alike {role : Role} (hrole : HoldsOperation role) {v w : Value}
    (hfields : SimilarFields role v.fields w.fields) (hoperands : OperandsAlike v) :
    (readOperation v).withoutWarnings = (readOperation w).withoutWarnings := by
  obtain ⟨hread, hunder₁, hunder₂⟩ := hrole
  have hoperation := hfields "operation" ⟨hread (by simp), by simp⟩
  have hfirst := hfields "source1" ⟨hread (by simp), by simp⟩
  have hsecond := hfields "source2" ⟨hread (by simp), by simp⟩
  rw [hunder₁] at hfirst
  rw [hunder₂] at hsecond
  simp only [← Value.field?_eq] at hoperation hfirst hsecond
  rw [readOperation_eq, readOperation_eq, Similar.getString_eq hoperation]
  refine Traced.withoutWarnings_bind_congr rfl fun name hname => ?_
  refine Traced.withoutWarnings_bind_congr rfl fun operator hoperator => ?_
  refine Traced.withoutWarnings_bind_congr ?_ fun _ _ => ?_
  · rw [withoutWarnings_warnUnknown, withoutWarnings_warnUnknown]
  refine Traced.withoutWarnings_bind_congr ?_ fun source₁ _ => ?_
  · exact readFirst_alike hoperands hfirst
  refine Traced.withoutWarnings_bind_congr ?_ fun source₂ _ => ?_
  · exact readSecond_alike hoperands hsecond
  refine Traced.withoutWarnings_bind_congr ?_ fun function _ => rfl
  by_cases happly : operator = .apply
  · subst happly
    rw [Traced.outcome_ofExcept, ← Similar.getString_eq hoperation,
      name_of_readOperator hoperator] at hname
    have happly : lookup? "operation" v.fields = some (.string Operator.apply.name) :=
      (Config.reports_getString v "operation").good hname
    have hfunction := hfields "function" ⟨hread (by simp), fun _ => happly⟩
    rw [Value.field?_eq, Value.field?_eq, Similar.readFunction_eq hfunction]
  · rw [withoutWarnings_readFunction happly, withoutWarnings_readFunction happly]

theorem readOperand_alike (v : Value) :
    ∀ w, Similar .operand v w → ∀ field,
      (readOperand field v).withoutWarnings = (readOperand field w).withoutWarnings := by
  induction v using Value.field_induction with
  | h v ih =>
      intro w h field
      cases v with
      | mapping entries =>
          obtain ⟨entries', rfl, hfields⟩ := h.fields
          rw [readOperand, readOperand]
          refine readOperation_alike holdsOperation_operand (v := .mapping entries)
            (w := .mapping entries') hfields ?_
          intro name first second hfirst hsimilar
          exact ih name first hfirst second hsimilar
      | _ =>
          cases h <;> simp [readOperand, Config.mismatch, Value.kind]

theorem operandsAlike (v : Value) : OperandsAlike v :=
  fun _ first second _ hsimilar => readOperand_alike first second hsimilar

end Expression

theorem Definition.ofYaml_alike {v w : Value} (h : Similar .definition v w) :
    (Definition.ofYaml v).withoutWarnings = (Definition.ofYaml w).withoutWarnings := by
  unfold Definition.ofYaml
  rcases h.fields_or_not rfl with ⟨entries, entries', hv, hw, hfields⟩ | ⟨hv, hw⟩
  · obtain rfl := Value.fields_of_untagged hv
    obtain rfl := Value.fields_of_untagged hw
    have htarget := hfields "target" ⟨by simp [Role.fields], by simp⟩
    simp only [← Value.field?_eq] at htarget
    rw [if_neg (by simp [Value.entries?_of_untagged hv]),
      if_neg (by simp [Value.entries?_of_untagged hw]), Similar.getString_eq htarget]
    refine Traced.withoutWarnings_bind_congr rfl fun target _ => ?_
    split
    · rfl
    · refine Traced.withoutWarnings_bind_congr ?_ fun _ _ => rfl
      rw [Traced.withoutWarnings_recover, Traced.withoutWarnings_recover,
        readOperation_alike holdsOperation_definition hfields (operandsAlike v)]
  · rw [Value.entries?_eq_none hv, Value.entries?_eq_none hw, Config.mismatch, Config.mismatch,
      h.kind]
    rfl

theorem FeaturePlan.ofYaml_alike {v w : Value} (h : Similar .plan v w) :
    (FeaturePlan.ofYaml v).withoutWarnings = (FeaturePlan.ofYaml w).withoutWarnings := by
  unfold FeaturePlan.ofYaml
  rcases h.fields_or_not rfl with ⟨entries, entries', hv, hw, hfields⟩ | ⟨hv, hw⟩
  · obtain rfl := Value.fields_of_untagged hv
    obtain rfl := Value.fields_of_untagged hw
    have hfeatures := hfields "feature_col" ⟨by simp [Role.fields], by simp⟩
    have htarget := hfields "target_col" ⟨by simp [Role.fields], by simp⟩
    have hitems := hfields "feature_eng" ⟨by simp [Role.fields], by simp⟩
    simp only [← Value.field?_eq] at hfeatures htarget hitems
    rw [if_neg (by simp [Value.entries?_of_untagged hv]),
      if_neg (by simp [Value.entries?_of_untagged hw]), Similar.getStrings_eq hfeatures,
      Similar.getString_eq htarget]
    refine Traced.withoutWarnings_bind_congr ?_ fun _ _ => ?_
    · rw [withoutWarnings_warnUnknown, withoutWarnings_warnUnknown]
    refine Traced.withoutWarnings_bind_congr rfl fun featureColumns _ => ?_
    refine Traced.withoutWarnings_bind_congr rfl fun targetColumn _ => ?_
    rcases Similar.getList_eq hitems with ⟨items, items', hleft, hright, halike⟩ |
      ⟨fault, hleft, hright⟩
    · rw [hleft, hright]
      show (items.mapM Definition.ofYaml >>= fun definitions =>
          pure (FeaturePlan.mk featureColumns targetColumn definitions)).withoutWarnings =
        (items'.mapM Definition.ofYaml >>= fun definitions =>
          pure (FeaturePlan.mk featureColumns targetColumn definitions)).withoutWarnings
      refine Traced.withoutWarnings_bind_congr ?_ fun definitions _ => rfl
      exact Traced.withoutWarnings_mapM_congr <| halike.imp fun _ _ => Definition.ofYaml_alike
    · rw [hleft, hright]
  · rw [Value.entries?_eq_none hv, Value.entries?_eq_none hw, Config.mismatch, Config.mismatch,
      h.kind]
    rfl

/-- Edits of what is not read change neither the plan nor the error, and no event but warnings. -/
theorem FeaturePlan.ofYaml_edited {v w : Value} (h : Relation.EqvGen (Edit .plan) v w) :
    (FeaturePlan.ofYaml v).outcome = (FeaturePlan.ofYaml w).outcome ∧
      (FeaturePlan.ofYaml v).events.filter (fun event => event.level ≠ .warn) =
        (FeaturePlan.ofYaml w).events.filter fun event => event.level ≠ .warn := by
  have halike : (FeaturePlan.ofYaml v).withoutWarnings =
      (FeaturePlan.ofYaml w).withoutWarnings := by
    induction h with
    | rel v w hedit => exact FeaturePlan.ofYaml_alike (similar_of_edit hedit)
    | refl v => rfl
    | symm v w _ ih => exact ih.symm
    | trans u v w _ _ ih ih' => exact ih.trans ih'
  constructor
  · rw [← Traced.outcome_withoutWarnings, halike, Traced.outcome_withoutWarnings]
  · show (FeaturePlan.ofYaml v).withoutWarnings.events =
      (FeaturePlan.ofYaml w).withoutWarnings.events
    rw [halike]

theorem FeaturePlan.ofYaml_edited_nested :
    ∃ nested nested' item item' v w : Value,
      nested = .mapping
          [(.string "operation", .string "multiply"), (.string "function", .int 1),
            (.string "source1", .string "a")] ∧
      nested' = .mapping
          [(.string "operation", .string "multiply"), (.string "source1", .string "a")] ∧
      item = .mapping
          [(.string "note", .null), (.string "target", .string "c"),
            (.string "operation", .string "add"), (.string "source1", nested)] ∧
      item' = .mapping
          [(.string "target", .string "c"), (.string "operation", .string "add"),
            (.string "source1", nested')] ∧
      v = .mapping
          [(.string "feature_col", .sequence [.string "a"]), (.string "target_col", .string "b"),
            (.string "feature_eng", .sequence [.tagged "item" item])] ∧
      w = .mapping
          [(.string "target_col", .string "b"), (.string "feature_col", .sequence [.string "a"]),
            (.string "feature_eng", .sequence [.tagged "item" item'])] ∧
      Relation.EqvGen (Edit .plan) v w ∧
      (ofYaml v).outcome = (ofYaml w).outcome ∧
      (ofYaml v).events.filter (fun event => event.level ≠ .warn) =
        (ofYaml w).events.filter fun event => event.level ≠ .warn := by
  refine ⟨_, _, _, _, _, _, rfl, rfl, rfl, rfl, rfl, rfl, ?_⟩
  have hnote : Edit .definition
      (.mapping [(.string "note", .null), (.string "target", .string "c"),
        (.string "operation", .string "add"), (.string "source1", .mapping
          [(.string "operation", .string "multiply"), (.string "function", .int 1),
            (.string "source1", .string "a")])])
      (.mapping [(.string "target", .string "c"), (.string "operation", .string "add"),
        (.string "source1", .mapping
          [(.string "operation", .string "multiply"), (.string "function", .int 1),
            (.string "source1", .string "a")])]) :=
    @Edit.drop .definition [] _ _ _ (by simp [Role.fields, Value.isKey])
  have hfunction : Edit .operand
      (.mapping [(.string "operation", .string "multiply"), (.string "function", .int 1),
        (.string "source1", .string "a")])
      (.mapping [(.string "operation", .string "multiply"), (.string "source1", .string "a")]) :=
    @Edit.dropFunction .operand [_] _ _ (by simp [lookup?, Value.isKey, Operator.name])
  have hnested := @Edit.entry .definition
    [(.string "target", .string "c"), (.string "operation", .string "add")] [] "source1" _ _
    hfunction
  have hitem {item item' : Value} (h : Edit .definition item item') : Edit .plan
      (.mapping [(.string "feature_col", .sequence [.string "a"]),
        (.string "target_col", .string "b"),
        (.string "feature_eng", .sequence [.tagged "item" item])])
      (.mapping [(.string "feature_col", .sequence [.string "a"]),
        (.string "target_col", .string "b"),
        (.string "feature_eng", .sequence [.tagged "item" item'])]) :=
    @Edit.entry .plan
      [(.string "feature_col", .sequence [.string "a"]), (.string "target_col", .string "b")] []
      "feature_eng" _ _ (@Edit.item .definitions [] [] _ _ (@Edit.tag .definition "item" _ _ h))
  have hedited := (Relation.EqvGen.rel _ _ (hitem hnote)).trans _ _ _
    (.trans _ _ _ (.rel _ _ (hitem hnested))
      (.rel _ _ (.reorder (by simp [DistinctTexts, Value.isKey]) (.swap _ _ _))))
  exact ⟨hedited, ofYaml_edited hedited⟩

end FeatureTable
