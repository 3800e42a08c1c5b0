import FeatureTable.Proofs.Feature.Grammar
import Mathlib.Logic.Relation

namespace FeatureTable

open Yaml (Value)
open Yaml.Value (lookup?)

/-- Where a value stands in a plan settles which of its fields are read, and where the values under
them stand. -/
inductive Role where
  | plan
  | definitions
  | definition
  | operand
  | elsewhere

namespace Role

def fields : Role → List String
  | plan => ["feature_col", "target_col", "feature_eng"]
  | definition => ["target", "operation", "source1", "source2", "function"]
  | operand => ["operation", "source1", "source2", "function"]
  | definitions | elsewhere => []

def under (role : Role) (name : String) : Role :=
  match role with
  | plan => if name = "feature_eng" then definitions else elsewhere
  | definition | operand => if name = "source1" ∨ name = "source2" then operand else elsewhere
  | definitions | elsewhere => elsewhere

def item : Role → Role
  | definitions => definition
  | _ => elsewhere

/-- Tags are looked through around a plan and around a definition. -/
def inside : Role → Role
  | plan => plan
  | definition => definition
  | _ => elsewhere

/-- The function is read only if the operator is `apply`. -/
def Reads (role : Role) (entries : List (Value × Value)) (name : String) : Prop :=
  name ∈ role.fields ∧
    (name = "function" → lookup? "operation" entries = some (.string Operator.apply.name))

end Role

/-- No text is the key of two entries, as in every mapping of a document. -/
def DistinctTexts (entries : List (Value × Value)) : Prop :=
  entries.Pairwise fun x y => ∀ name, ¬ (x.1.isKey name = true ∧ y.1.isKey name = true)

/-- A single change of a value that stands in a role, at any depth, to a part that is not read. -/
inductive Edit : Role → Value → Value → Prop
  | reorder {role : Role} {entries entries' : List (Value × Value)}
      (hdistinct : DistinctTexts entries) (hperm : entries.Perm entries') :
      Edit role (.mapping entries) (.mapping entries')
  | drop {role : Role} {before after : List (Value × Value)} {key value : Value}
      (hkey : ∀ name ∈ role.fields, key.isKey name = false) :
      Edit role (.mapping (before ++ (key, value) :: after)) (.mapping (before ++ after))
  | dropFunction {role : Role} {before after : List (Value × Value)} {value : Value}
      (hoperator : lookup? "operation" (before ++ after) ≠ some (.string Operator.apply.name)) :
      Edit role (.mapping (before ++ (.string "function", value) :: after))
        (.mapping (before ++ after))
  | entry {role : Role} {before after : List (Value × Value)} {name : String} {v w : Value}
      (h : Edit (role.under name) v w) :
      Edit role (.mapping (before ++ (.string name, v) :: after))
        (.mapping (before ++ (.string name, w) :: after))
  | item {role : Role} {before after : List Value} {v w : Value} (h : Edit role.item v w) :
      Edit role (.sequence (before ++ v :: after)) (.sequence (before ++ w :: after))
  | tag {role : Role} {tag : String} {v w : Value} (h : Edit role.inside v w) :
      Edit role (.tagged tag v) (.tagged tag w)

theorem lookup?_append (name : String) (before after : List (Value × Value)) :
    lookup? name (before ++ after) = (lookup? name before).or (lookup? name after) := by
  induction before with
  | nil => rfl
  | cons entry before ih =>
      obtain ⟨key, value⟩ := entry
      rw [List.cons_append, lookup?, lookup?, ih]
      split <;> rfl

theorem lookup?_insert {name : String} {key : Value} (hkey : key.isKey name = false)
    (before after : List (Value × Value)) (value : Value) :
    lookup? name (before ++ (key, value) :: after) = lookup? name (before ++ after) := by
  rw [lookup?_append, lookup?_append, lookup?, if_neg (by simp [hkey])]

theorem lookup?_perm {entries entries' : List (Value × Value)} (hdistinct : DistinctTexts entries)
    (hperm : entries.Perm entries') (name : String) :
    lookup? name entries = lookup? name entries' := by
  induction hperm with
  | nil => rfl
  | cons entry _ ih =>
      rw [lookup?, lookup?, ih (List.pairwise_cons.mp hdistinct).2]
  | swap x y entries =>
      have hnotBoth := (List.pairwise_cons.mp hdistinct).1 x List.mem_cons_self name
      rw [lookup?, lookup?, lookup?, lookup?]
      split
      · rename_i hkey
        rw [if_neg fun hother => hnotBoth ⟨hkey, hother⟩]
      · rfl
  | trans hfirst _ ih ih' =>
      have hmiddle : DistinctTexts _ :=
        hfirst.pairwise hdistinct fun hxy other hboth => hxy other hboth.symm
      exact (ih hdistinct).trans (ih' hmiddle)

/-- The values look alike to whatever reads them in the role. -/
inductive Similar : Role → Value → Value → Prop
  | refl (role : Role) (v : Value) : Similar role v v
  | mapping {role : Role} {entries entries' : List (Value × Value)}
      (hpresent : ∀ name, role.Reads entries name →
        (lookup? name entries = none ↔ lookup? name entries' = none))
      (hvalue : ∀ name v w, role.Reads entries name → lookup? name entries = some v →
        lookup? name entries' = some w → Similar (role.under name) v w) :
      Similar role (.mapping entries) (.mapping entries')
  | sequence {role : Role} {items items' : List Value} (hlength : items.length = items'.length)
      (hitem : ∀ i (hi : i < items.length) (hi' : i < items'.length),
        Similar role.item items[i] items'[i]) :
      Similar role (.sequence items) (.sequence items')
  | tagged {role : Role} {tag : String} {v w : Value} (h : Similar role.inside v w) :
      Similar role (.tagged tag v) (.tagged tag w)

def SimilarFields (role : Role) (entries entries' : List (Value × Value)) : Prop :=
  ∀ name, role.Reads entries name →
    Option.Rel (Similar (role.under name)) (lookup? name entries) (lookup? name entries')

theorem similar_mapping {role : Role} {entries entries' : List (Value × Value)}
    (h : SimilarFields role entries entries') :
    Similar role (.mapping entries) (.mapping entries') := by
  refine .mapping (fun name hreads => ?_) (fun name v w hreads hv hw => ?_)
  · have hrel := h name hreads
    generalize lookup? name entries = left, lookup? name entries' = right at hrel ⊢
    cases hrel <;> simp
  · have hrel := h name hreads
    rw [hv, hw] at hrel
    cases hrel with
    | some hsimilar => exact hsimilar

theorem similarFields_of_eq {role : Role} {entries entries' : List (Value × Value)}
    (h : ∀ name, role.Reads entries name → lookup? name entries = lookup? name entries') :
    SimilarFields role entries entries' := by
  intro name hreads
  rw [h name hreads]
  cases lookup? name entries' with
  | none => exact .none
  | some v => exact .some (.refl _ v)

theorem Similar.fields {role : Role} {entries : List (Value × Value)} {w : Value}
    (h : Similar role (.mapping entries) w) :
    ∃ entries', w = .mapping entries' ∧ SimilarFields role entries entries' := by
  cases h with
  | refl => exact ⟨entries, rfl, similarFields_of_eq fun _ _ => rfl⟩
  | @mapping _ _ entries' hpresent hvalue =>
      refine ⟨entries', rfl, fun name hreads => ?_⟩
      cases hv : lookup? name entries with
      | none =>
          rw [(hpresent name hreads).mp hv]
          exact .none
      | some v =>
          cases hw : lookup? name entries' with
          | none => simp [(hpresent name hreads).mpr hw] at hv
          | some w => exact .some (hvalue name v w hreads hv hw)

theorem similarFields_entry {role : Role} {name : String} {v w : Value}
    (h : Similar (role.under name) v w) (before after : List (Value × Value)) :
    SimilarFields role (before ++ (.string name, v) :: after)
      (before ++ (.string name, w) :: after) := by
  intro other _
  rw [lookup?_append, lookup?_append, lookup?, lookup?]
  cases lookup? other before with
  | some value => exact .some (.refl _ value)
  | none =>
      rw [Option.none_or, Option.none_or]
      split
      · rename_i hkey
        rw [← beq_iff_eq.mp hkey]
        exact .some h
      · cases lookup? other after with
        | none => exact .none
        | some value => exact .some (.refl _ value)

theorem similar_item {role : Role} {v w : Value} (h : Similar role.item v w)
    (before after : List Value) :
    Similar role (.sequence (before ++ v :: after)) (.sequence (before ++ w :: after)) := by
  refine .sequence (by simp) fun i hi hi' => ?_
  rcases Nat.lt_trichotomy i before.length with hbefore | rfl | hafter
  · rw [List.getElem_append_left hbefore, List.getElem_append_left hbefore]
    exact .refl _ _
  · simpa using h
  · obtain ⟨j, rfl⟩ := Nat.exists_eq_add_of_lt hafter
    simp [List.getElem_append_right, Nat.add_assoc, Similar.refl]

theorem similar_of_edit {role : Role} {v w : Value} (h : Edit role v w) : Similar role v w := by
  induction h with
  | reorder hdistinct hperm =>
      exact similar_mapping (similarFields_of_eq fun name _ => lookup?_perm hdistinct hperm name)
  | drop hkey =>
      exact similar_mapping <| similarFields_of_eq fun name hreads =>
        lookup?_insert (hkey name hreads.1) _ _ _
  | dropFunction hoperator =>
      refine similar_mapping (similarFields_of_eq fun name hreads => ?_)
      have hkey : ∀ other : String, "function" ≠ other →
          (Value.string "function").isKey other = false := fun other hne => beq_false_of_ne hne
      by_cases hname : name = "function"
      · have happly := hreads.2 hname
        rw [lookup?_insert (hkey "operation" (by decide))] at happly
        exact absurd happly hoperator
      · exact lookup?_insert (hkey name (Ne.symm hname)) _ _ _
  | entry _ ih => exact similar_mapping (similarFields_entry ih _ _)
  | item _ ih => exact similar_item ih _ _
  | tag _ ih => exact .tagged ih

end FeatureTable
