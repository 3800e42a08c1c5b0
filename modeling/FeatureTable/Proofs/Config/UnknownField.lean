import FeatureTable.Config.UnknownField
import FeatureTable.Proofs.Expression.Grammar
import FeatureTable.Proofs.FirstAt
import FeatureTable.Proofs.Text.EditDistance

namespace FeatureTable.Config

open Text (Edits Fewest editDistance fewest_editDistance)
open Yaml (Value)

/-! Which field a warning suggests, and which entries of a mapping are warned about. -/

variable {field other : String} {fields known : List String}

/-- At most two edits away, and no known field is closer. -/
def Nearest (known : List String) (field other : String) : Prop :=
  ∃ n, n ≤ 2 ∧ Fewest field.toList other.toList n ∧
    ∀ rival ∈ known, ∀ m, Edits m field.toList rival.toList → n ≤ m

/-- The table of slips is asked first, then the known fields in their order. -/
inductive Suggests (known : List String) (field : String) : Option String → Prop
  | slip {meant : String} (hslip : (field, meant) ∈ corrections) : Suggests known field (some meant)
  | near {place : Nat} {other : String} (hclean : ∀ meant, (field, meant) ∉ corrections)
      (hfirst : FirstAt (Nearest known field) known place other) :
      Suggests known field (some other)
  | far (hclean : ∀ meant, (field, meant) ∉ corrections)
      (hfar : ∀ other ∈ known, ∀ n, Edits n field.toList other.toList → 2 < n) :
      Suggests known field none

inductive Warned (known : List String) (context : String) :
    List (Value × Value) → List String → Prop
  | nil : Warned known context [] []
  | unknown {key value : Value} {field : String} {suggestion : Option String}
      {entries : List (Value × Value)} {messages : List String}
      (hkey : key.untagged = .string field) (hfield : field ∉ known)
      (hsuggests : Suggests known field suggestion)
      (hrest : Warned known context entries messages) :
      Warned known context ((key, value) :: entries)
        (UnknownField.message ⟨field, suggestion⟩ context :: messages)
  | other {key value : Value} {entries : List (Value × Value)} {messages : List String}
      (hkey : ∀ field, key.untagged = .string field → field ∈ known)
      (hrest : Warned known context entries messages) :
      Warned known context ((key, value) :: entries) messages

/-- None of the fields is closer. -/
def Least (fields : List String) (field other : String) : Prop :=
  ∀ rival ∈ fields, editDistance field other ≤ editDistance field rival

theorem least_cons {first : String} :
    Least (first :: fields) field other ↔
      editDistance field other ≤ editDistance field first ∧ Least fields field other :=
  List.forall_mem_cons

theorem nearestField_eq_none (h : nearestField field fields = none) : fields = [] := by
  cases fields with
  | nil => rfl
  | cons first rest =>
      unfold nearestField at h
      split at h
      · cases h
      · split at h <;> cases h

theorem nearestField_firstAt (h : nearestField field fields = some other) :
    ∃ place, FirstAt (Least fields field) fields place other := by
  induction fields generalizing other with
  | nil => cases h
  | cons first rest ih =>
      unfold nearestField at h
      split at h
      · rename_i hrest
        cases h
        cases nearestField_eq_none hrest
        exact ⟨0, firstAt_cons_zero.mpr ⟨rfl, least_cons.mpr ⟨Nat.le_refl _, nofun⟩⟩⟩
      · rename_i later hlater
        obtain ⟨place, hfirst⟩ := ih hlater
        split at h
        · -- The first field is not least, so the least one of the rest stays the first.
          rename_i hcloser
          cases h
          refine ⟨place + 1, firstAt_cons_succ.mpr ⟨fun hleast => ?_, ?_⟩⟩
          · exact Nat.not_le.mpr hcloser (hleast _ (.tail _ (List.mem_of_getElem? hfirst.here)))
          · exact hfirst.imp (fun hleast => least_cons.mpr ⟨Nat.le_of_lt hcloser, hleast⟩)
              fun _ hleast => (least_cons.mp hleast).2
        · rename_i hcloser
          cases h
          have hleast : Least rest field first := fun rival hrival =>
            Nat.le_trans (Nat.not_lt.mp hcloser) (hfirst.holds rival hrival)
          exact ⟨0, firstAt_cons_zero.mpr ⟨rfl, least_cons.mpr ⟨Nat.le_refl _, hleast⟩⟩⟩

theorem nearest_iff :
    Nearest known field other ↔ editDistance field other ≤ 2 ∧ Least known field other := by
  have hfewest := fewest_editDistance field other
  constructor
  · rintro ⟨n, hn, hother, hrivals⟩
    cases hother.unique hfewest
    exact ⟨hn, fun rival hrival => hrivals rival hrival _ (fewest_editDistance field rival).reached⟩
  · rintro ⟨hnear, hleast⟩
    refine ⟨_, hnear, hfewest, fun rival hrival m hm => ?_⟩
    exact Nat.le_trans (hleast rival hrival) ((fewest_editDistance field rival).least m hm)

/-- A field that is far cannot be closer than one that is near. -/
theorem least_filter_iff (h : editDistance field other ≤ 2) :
    Least (known.filter fun rival => editDistance field rival ≤ 2) field other ↔
      Least known field other := by
  constructor
  · intro hleast rival hrival
    by_cases hnear : editDistance field rival ≤ 2
    · exact hleast rival (List.mem_filter.mpr ⟨hrival, decide_eq_true hnear⟩)
    · exact Nat.le_trans h (Nat.le_of_not_le hnear)
  · exact fun hleast rival hrival => hleast rival (List.mem_of_mem_filter hrival)

theorem similarField_firstAt (h : similarField field known = some other) :
    ∃ place, FirstAt (Nearest known field) known place other := by
  obtain ⟨place, hfirst⟩ := nearestField_firstAt h
  obtain ⟨place, hfirst⟩ := hfirst.of_filter
  have hnearest : ∀ candidate, Nearest known field candidate ↔
      decide (editDistance field candidate ≤ 2) = true ∧
        Least (known.filter fun rival => editDistance field rival ≤ 2) field candidate := by
    intro candidate
    rw [nearest_iff, decide_eq_true_iff]
    exact and_congr_right fun hnear => (least_filter_iff hnear).symm
  exact ⟨place, hfirst.imp (hnearest other).mpr fun candidate => (hnearest candidate).mp⟩

theorem similarField_eq_none (h : similarField field known = none) :
    ∀ other ∈ known, ∀ n, Edits n field.toList other.toList → 2 < n := by
  intro other hother n hn
  have hfar := List.filter_eq_nil_iff.mp (nearestField_eq_none h) other hother
  rw [decide_eq_true_iff, Nat.not_le] at hfar
  exact Nat.lt_of_lt_of_le hfar ((fewest_editDistance field other).least n hn)

theorem suggests_suggest (known : List String) (field : String) :
    Suggests known field (suggest field known) := by
  unfold suggest
  cases hslip : corrections.lookup field with
  | some meant =>
      obtain ⟨before, after, hsplit, -⟩ := List.lookup_eq_some_iff.mp hslip
      exact .slip (by rw [hsplit]; exact List.mem_append_right _ (.head _))
  | none =>
      have hclean : ∀ meant, (field, meant) ∉ corrections := fun meant hmem =>
        absurd (List.lookup_eq_none_iff.mp hslip _ hmem) (by simp)
      rw [Option.none_or]
      cases hsimilar : similarField field known with
      | some other =>
          obtain ⟨_, hfirst⟩ := similarField_firstAt hsimilar
          exact .near hclean hfirst
      | none => exact .far hclean (similarField_eq_none hsimilar)

theorem asString?_eq_some_iff {key : Value} :
    key.asString? = some field ↔ key.untagged = .string field := by
  unfold Value.asString?
  split
  · rename_i text htext
    rw [htext, Option.some.injEq, Value.string.injEq]
  · rename_i hother
    exact ⟨nofun, fun h => absurd h (hother field)⟩

theorem unknownFields_of_untagged {v : Value} {entries : List (Value × Value)}
    (h : v.untagged = .mapping entries) (known : List String) :
    unknownFields v known = unknownFields (.mapping entries) known := by
  rw [unknownFields, Value.entries?_of_untagged h]
  rfl

theorem unknownFields_cons_unknown {key : Value} (hkey : key.untagged = .string field)
    (hfield : field ∉ known) (value : Value) (entries : List (Value × Value)) :
    unknownFields (.mapping ((key, value) :: entries)) known =
      ⟨field, suggest field known⟩ :: unknownFields (.mapping entries) known := by
  refine List.filterMap_cons_some ?_
  simp [asString?_eq_some_iff.mpr hkey, hfield]

theorem unknownFields_cons_other {key : Value}
    (hkey : ∀ field, key.untagged = .string field → field ∈ known) (value : Value)
    (entries : List (Value × Value)) :
    unknownFields (.mapping ((key, value) :: entries)) known =
      unknownFields (.mapping entries) known := by
  refine List.filterMap_cons_none ?_
  cases htext : key.asString? with
  | none => simp [htext]
  | some field => simp [htext, hkey field (asString?_eq_some_iff.mp htext)]

theorem warned_mapping (known : List String) (context : String) (entries : List (Value × Value)) :
    Warned known context entries
      ((unknownFields (.mapping entries) known).map (·.message context)) := by
  induction entries with
  | nil => exact .nil
  | cons entry entries ih =>
      obtain ⟨key, value⟩ := entry
      by_cases hother : ∀ field, key.untagged = .string field → field ∈ known
      · rw [unknownFields_cons_other hother]
        exact .other hother ih
      · push Not at hother
        obtain ⟨field, hkey, hfield⟩ := hother
        rw [unknownFields_cons_unknown hkey hfield]
        exact .unknown hkey hfield (suggests_suggest known field) ih

/-- A mapping gets one warning for each unknown field, in its order, and another value none. -/
theorem unknownFields_warned (v : Value) (known : List String) (context : String) :
    (∀ entries, v.untagged = .mapping entries →
      Warned known context entries ((unknownFields v known).map (·.message context))) ∧
    ((∀ entries, v.untagged ≠ .mapping entries) → unknownFields v known = []) := by
  constructor
  · intro entries hentries
    rw [unknownFields_of_untagged hentries]
    exact warned_mapping known context entries
  · intro hother
    rw [unknownFields, Value.entries?_eq_none hother]
    rfl

/-- Two keys are unknown and close to a field, one of them under a tag, and the last is unknown and
close to none. -/
def misspelt : List (Value × Value) :=
  [(.string "operaton", .null), (.tagged "old" (.string "op"), .null), (.string "target", .null),
    (.int 1, .null), (.string "colour", .null)]

theorem unknownFields_warned_misspelt :
    Warned ["target", "operation"] "feature" misspelt
        ["Unknown field 'operaton' in feature. Did you mean 'operation'?",
          "Unknown field 'op' in feature. Did you mean 'operation'?",
          "Unknown field 'colour' in feature."] ∧
      unknownFields (.sequence [.string "operaton"]) ["target", "operation"] = [] := by
  obtain ⟨hwarned, -⟩ := unknownFields_warned (.tagged "feature" (.mapping misspelt))
    ["target", "operation"] "feature"
  obtain ⟨-, hnone⟩ := unknownFields_warned (.sequence [.string "operaton"])
    ["target", "operation"] "feature"
  have hmessages : (unknownFields (.tagged "feature" (.mapping misspelt))
      ["target", "operation"]).map (·.message "feature") =
        ["Unknown field 'operaton' in feature. Did you mean 'operation'?",
          "Unknown field 'op' in feature. Did you mean 'operation'?",
          "Unknown field 'colour' in feature."] := by decide +kernel
  exact ⟨hmessages ▸ hwarned misspelt rfl, hnone nofun⟩

end FeatureTable.Config
