import FeatureTable.Proofs.Expression.FunctionsFit

namespace FeatureTable

open Expression
open Yaml (Value)
open Yaml.Value (lookup?)

namespace Grammar

def functionEntries : Option Transform → List (Value × Value)
  | none => []
  | some f => [(.string "function", .string f.name)]

def rendered : Expression → Value
  | .column name => .string name
  | .overOne operator source function =>
      .mapping <|
        [(.string "operation", .string operator.name), (.string "source1", rendered source)] ++
          functionEntries function
  | .overTwo operator source₁ source₂ function =>
      .mapping <|
        [(.string "operation", .string operator.name), (.string "source1", rendered source₁),
          (.string "source2", rendered source₂)] ++
          functionEntries function

theorem lookup?_cons (key name : String) (value : Value) (entries : List (Value × Value)) :
    lookup? name ((.string key, value) :: entries) =
      if key = name then some value else lookup? name entries := by
  simp [lookup?, Value.isKey]

theorem lookup?_functionEntries_of_ne {name : String} (h : "function" ≠ name)
    (function : Option Transform) : lookup? name (functionEntries function) = none := by
  cases function with
  | none => rfl
  | some f => rw [functionEntries, lookup?_cons, if_neg h, lookup?]

theorem names_of_fits {entries : List (Value × Value)} {operator : Operator}
    {function : Option Transform} (hfits : function.isSome = true ↔ operator = .apply)
    (hoperation : lookup? "operation" entries = some (.string operator.name))
    (hfunction : lookup? "function" entries = lookup? "function" (functionEntries function)) :
    Names entries operator function where
  operation := hoperation
  taken := by
    intro happly
    obtain ⟨f, rfl⟩ := Option.isSome_iff_exists.mp (hfits.mpr happly)
    refine ⟨f, f.name, rfl, ?_, .inl rfl⟩
    rw [hfunction, functionEntries, lookup?_cons, if_pos rfl]
  dropped := by
    intro hne
    cases function with
    | none => rfl
    | some f => exact absurd (hfits.mp rfl) hne

theorem denotes_rendered {e : Expression} (h : e.FunctionsFit) : Denotes (rendered e) e := by
  induction e with
  | column name => exact .column name
  | overOne operator source function ih =>
      refine .overOne (names_of_fits h.1 ?_ ?_) ?_ (ih h.2) ?_
      all_goals simp [lookup?_cons, lookup?_functionEntries_of_ne]
  | overTwo operator source₁ source₂ function ih₁ ih₂ =>
      refine .overTwo (names_of_fits h.1 ?_ ?_) ?_ (ih₁ h.2.1) ?_ (ih₂ h.2.2)
      all_goals simp [lookup?_cons]

end Grammar

namespace Expression

open Grammar

/-- Reading accepts the grammar, gives what a value stands for and otherwise reports the first
fault.  The expressions that it gives are those whose functions fit. -/
theorem outcome_ofYaml_grammar :
    (∀ v, ((∃ e, (ofYaml v).outcome = .ok e) ↔ Accepts v) ∧
      (∀ e, (ofYaml v).outcome = .ok e ↔ Denotes v e) ∧
      ∀ fault, (ofYaml v).outcome = .error fault ↔ (faults "source1" v).head? = some fault) ∧
    ∀ e, (∃ v, (ofYaml v).outcome = .ok e) ↔ e.FunctionsFit := by
  have hok : ∀ v e, (ofYaml v).outcome = .ok e ↔ Denotes v e := fun v e =>
    ⟨(reports_readOperand v "source1").good, fun h => outcome_readOperand_of_denotes h "source1"⟩
  refine ⟨fun v => ⟨?_, hok v, fun fault => (reports_readOperand v "source1").eq_error_iff⟩, ?_⟩
  · rw [accepts_iff]
    exact exists_congr (hok v)
  · intro e
    constructor
    · rintro ⟨v, h⟩
      exact functionsFit_of_denotes ((hok v e).mp h)
    · exact fun h => ⟨rendered e, (hok _ e).mpr (denotes_rendered h)⟩

end Expression

end FeatureTable
