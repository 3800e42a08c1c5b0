import FeatureTable.Proofs.Expression.Reading
import FeatureTable.Proofs.Expression.Rowwise

namespace FeatureTable.Expression

open Yaml (Value)

/-- A function stands exactly where `apply` does. -/
def FunctionsFit : Expression → Prop
  | .column _ => True
  | .overOne operator source function =>
      (function.isSome = true ↔ operator = .apply) ∧ source.FunctionsFit
  | .overTwo operator source₁ source₂ function =>
      (function.isSome = true ↔ operator = .apply) ∧ source₁.FunctionsFit ∧ source₂.FunctionsFit

theorem isSome_of_names {entries : List (Value × Value)} {operator : Operator}
    {function : Option Transform} (h : Grammar.Names entries operator function) :
    function.isSome = true ↔ operator = .apply := by
  constructor
  · intro hfunction
    by_contra hne
    rw [h.dropped hne] at hfunction
    cases hfunction
  · intro happly
    obtain ⟨f, -, rfl, -⟩ := h.taken happly
    rfl

theorem functionsFit_of_denotes {v : Value} {e : Expression} (h : Grammar.Denotes v e) :
    e.FunctionsFit := by
  induction h with
  | column name => trivial
  | overOne hnames _ _ _ ih => exact ⟨isSome_of_names hnames, ih⟩
  | overTwo hnames _ _ _ _ ih₁ ih₂ => exact ⟨isSome_of_names hnames, ih₁, ih₂⟩

theorem functionsFit_readOperation {v : Value} {e : Expression}
    (h : (readOperation v).outcome = .ok e) : e.FunctionsFit :=
  functionsFit_of_denotes ((Grammar.reports_readOperation (Grammar.operandsRead v) "").good h)

inductive MayFail (e : Expression) : EvalError → Prop
  | missingColumn (name : String) : MayFail e (.missingColumn name)
  | missingOperand {operator : Operator} (hoperator : operator ≠ .apply) :
      MayFail e (.missingOperand operator)
  | missingFunction (hfits : ¬ e.FunctionsFit) : MayFail e .missingFunction

theorem MayFail.mono {part whole : Expression} {fault : EvalError} (h : MayFail part fault)
    (hfits : whole.FunctionsFit → part.FunctionsFit) : MayFail whole fault := by
  cases h with
  | missingColumn name => exact .missingColumn name
  | missingOperand hoperator => exact .missingOperand hoperator
  | missingFunction hpart => exact .missingFunction fun hwhole => hpart (hfits hwhole)

theorem MayFail.asOperandFault {e : Expression} {fault : EvalError} (h : MayFail e fault)
    {operator : Operator} (hoperator : operator ≠ .apply) :
    MayFail e (asOperandFault operator fault) := by
  cases h with
  | missingColumn name => exact .missingOperand hoperator
  | missingOperand hother => exact .missingOperand hother
  | missingFunction hfits => exact .missingFunction hfits

theorem missingFunction_of_apply {operator : Operator} {function : Option Transform}
    {fault : EvalError} (hbinary : ¬ operator.isBinary = true)
    (h : (if function.isNone then some EvalError.missingFunction else none) = some fault) :
    fault = .missingFunction ∧ ¬ (function.isSome = true ↔ operator = .apply) := by
  have happly : operator = .apply := by
    by_contra hne
    exact hbinary (Operator.isBinary_iff.mpr hne)
  cases function with
  | none =>
      cases h
      exact ⟨rfl, fun hfits => (by cases hfits.mpr happly)⟩
  | some f => cases h

theorem mayFail_of_fault? {present : String → Bool} {e : Expression} {fault : EvalError}
    (h : e.fault? present = some fault) : MayFail e fault := by
  induction e generalizing fault with
  | column name =>
      rw [fault?] at h
      split at h
      · cases h
      · cases h
        exact .missingColumn name
  | overOne operator source function ih =>
      rw [fault?, Option.or_eq_some_iff] at h
      rcases h with hsource | ⟨-, hown⟩
      · exact (ih hsource).mono And.right
      · split at hown
        · rename_i hbinary
          cases hown
          exact .missingOperand (Operator.isBinary_iff.mp hbinary)
        · rename_i hbinary
          obtain ⟨rfl, hunfit⟩ := missingFunction_of_apply hbinary hown
          exact .missingFunction fun hfits => hunfit hfits.1
  | overTwo operator source₁ source₂ function ih₁ ih₂ =>
      rw [fault?, Option.or_eq_some_iff] at h
      rcases h with hsource₁ | ⟨-, hown⟩
      · exact (ih₁ hsource₁).mono fun hfits => hfits.2.1
      · split at hown
        · rename_i hbinary
          obtain ⟨other, hother, rfl⟩ := Option.map_eq_some_iff.mp hown
          exact ((ih₂ hother).asOperandFault (Operator.isBinary_iff.mp hbinary)).mono
            fun hfits => hfits.2.2
        · rename_i hbinary
          obtain ⟨rfl, hunfit⟩ := missingFunction_of_apply hbinary hown
          exact .missingFunction fun hfits => hunfit hfits.1

end FeatureTable.Expression
