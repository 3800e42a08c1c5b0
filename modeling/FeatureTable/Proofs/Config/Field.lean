import FeatureTable.Proofs.Expression.Grammar
import FeatureTable.Proofs.Reports

namespace FeatureTable.Config

open Yaml (Value)
open Yaml.Value (lookup?)

def textFaults (field : String) (entries : List (Value × Value)) : List ConfigError :=
  match lookup? field entries with
  | none => [.missingField field]
  | some (.string _) => []
  | some other => [mismatch field .string other]

def listFaults (field : String) (faultsOf : List Value → List ConfigError)
    (entries : List (Value × Value)) : List ConfigError :=
  match lookup? field entries with
  | none => [.missingField field]
  | some (.sequence items) => faultsOf items
  | some other => [mismatch field .list other]

/-- One fault for each item that is not a text, under the place of the item. -/
def itemFaults (field : String) (first : Nat) (items : List Value) : List ConfigError :=
  (items.zipIdx first).filterMap fun (item, index) =>
    match item with
    | .string _ => none
    | other => some (.typeMismatch { field, index } .string other.kind)

theorem head?_itemFaults (field : String) (first : Nat) (texts : List String) {other : Value}
    (hother : ∀ text, other ≠ .string text) (later : List Value) :
    (itemFaults field first (texts.map .string ++ other :: later)).head? =
      some (.typeMismatch { field, index := some (first + texts.length) } .string other.kind) := by
  induction texts generalizing first with
  | nil =>
      cases other with
      | string text => exact absurd rfl (hother text)
      | _ => rfl
  | cons text texts ih =>
      rw [List.length_cons, Nat.add_comm texts.length 1, ← Nat.add_assoc, ← ih (first + 1)]
      rfl

theorem reports_getString (v : Value) (field : String) :
    Reports (fun text => lookup? field v.fields = some (.string text)) (getString v field)
      (textFaults field v.fields) := by
  unfold getString textFaults
  rw [Value.field?_eq]
  cases lookup? field v.fields with
  | none => exact .fails _ []
  | some value =>
      cases value with
      | string text => exact .passes rfl
      | _ => exact .fails _ []

theorem reports_getList {Good : List Value → α → Prop} {read : List Value → Except ConfigError α}
    {faultsOf : List Value → List ConfigError}
    (h : ∀ items, Reports (Good items) (read items) (faultsOf items)) (v : Value)
    (field : String) :
    Reports (fun a => ∃ items, lookup? field v.fields = some (.sequence items) ∧ Good items a)
      (getList v field >>= read) (listFaults field faultsOf v.fields) := by
  unfold getList listFaults
  rw [Value.field?_eq]
  cases lookup? field v.fields with
  | none => exact .fails _ []
  | some value =>
      cases value with
      | sequence items => exact (h items).mono fun a ha => ⟨items, rfl, ha⟩
      | _ => exact .fails _ []

theorem reports_stringItems (field : String) (first : Nat) (items : List Value) :
    Reports (fun texts => items = texts.map .string) (stringItems field first items)
      (itemFaults field first items) := by
  induction items generalizing first with
  | nil => exact .passes rfl
  | cons item items ih =>
      unfold itemFaults
      rw [List.zipIdx_cons, List.filterMap_cons]
      cases item with
      | string text =>
          refine (ih (first + 1)).map fun texts htexts => ?_
          rw [htexts, List.map_cons]
      | _ => exact .fails _ _

theorem reports_getStrings (v : Value) (field : String) :
    Reports (fun texts => lookup? field v.fields = some (.sequence (texts.map .string)))
      (getStrings v field) (listFaults field (itemFaults field 0) v.fields) := by
  refine (reports_getList (reports_stringItems field 0) v field).mono ?_
  rintro texts ⟨items, hitems, rfl⟩
  exact hitems

theorem getString_of_lookup? {v : Value} {field text : String}
    (h : lookup? field v.fields = some (.string text)) : getString v field = .ok text := by
  rw [getString, Value.field?_eq, h]

theorem getList_of_lookup? {v : Value} {field : String} {items : List Value}
    (h : lookup? field v.fields = some (.sequence items)) : getList v field = .ok items := by
  rw [getList, Value.field?_eq, h]

theorem stringItems_map_string (field : String) (first : Nat) (texts : List String) :
    stringItems field first (texts.map .string) = .ok texts := by
  induction texts generalizing first with
  | nil => rfl
  | cons text texts ih =>
      rw [List.map_cons, stringItems, ih]
      rfl

theorem getStrings_of_lookup? {v : Value} {field : String} {texts : List String}
    (h : lookup? field v.fields = some (.sequence (texts.map .string))) :
    getStrings v field = .ok texts := by
  rw [getStrings, getList_of_lookup? h]
  exact stringItems_map_string field 0 texts

end FeatureTable.Config
