import FeatureTable.Expression.OfYaml

namespace FeatureTable

open Yaml (Value)
open Yaml.Value (lookup?)

theorem Operator.ofName?_eq_some_iff {name : String} {operator : Operator} :
    Operator.ofName? name = some operator ↔ name = operator.name := by
  constructor
  · exact fun h => (Operator.name_of_ofName? h).symm
  · rintro rfl
    exact Operator.ofName?_name operator

/-- A document may call a function by its name, and `abs` also by two others. -/
def Transform.IsCalled (f : Transform) (name : String) : Prop :=
  name = f.name ∨ f = .abs ∧ (name = "absolute" ∨ name = "fabs")

theorem Transform.ofName?_eq_some_iff {name : String} {f : Transform} :
    Transform.ofName? name = some f ↔ f.IsCalled name := by
  constructor
  · intro h
    unfold Transform.ofName? at h
    split at h
    · rename_i halias
      exact .inr ⟨(Option.some.inj h).symm, halias⟩
    · exact .inl (Transform.name_of_ofCanonicalName? h).symm
  · rintro (rfl | ⟨rfl, halias⟩)
    · exact Transform.ofName?_name f
    · exact if_pos halias

/-- What holds of a value once it holds of its fields holds of every value. -/
theorem Yaml.Value.field_induction {P : Value → Prop}
    (h : ∀ v, (∀ name w, v.field? name = some w → P w) → P v) (v : Value) : P v :=
  h v fun _ w _hw => field_induction h w
termination_by sizeOf v
decreasing_by exact Value.sizeOf_field?_lt _hw

/-- The entries of a mapping, and none of any other value. -/
def Yaml.Value.fields (v : Value) : List (Value × Value) :=
  v.entries?.getD []

@[simp] theorem Yaml.Value.fields_mapping (entries : List (Value × Value)) :
    (Value.mapping entries).fields = entries := rfl

theorem Yaml.Value.field?_eq (v : Value) (name : String) :
    v.field? name = lookup? name v.fields := by
  unfold Value.field? Value.fields
  cases v.entries? <;> rfl

theorem Yaml.Value.fields_of_untagged {v : Value} {entries : List (Value × Value)}
    (h : v.untagged = .mapping entries) : v.fields = entries := by
  rw [Value.fields, Value.entries?, h]
  rfl

theorem Yaml.Value.entries?_of_untagged {v : Value} {entries : List (Value × Value)}
    (h : v.untagged = .mapping entries) : v.entries? = some entries := by
  rw [Value.entries?, h]

theorem Yaml.Value.entries?_eq_none {v : Value}
    (h : ∀ entries, v.untagged ≠ .mapping entries) : v.entries? = none := by
  unfold Value.entries?
  split
  · rename_i entries hentries
    exact absurd hentries (h entries)
  · rfl

namespace Grammar

inductive Accepts : Value → Prop
  | column (name : String) : Accepts (.string name)
  | operation {entries : List (Value × Value)} {operator : Operator} {first : Value}
      (hoperator : lookup? "operation" entries = some (.string operator.name))
      (hfirst : lookup? "source1" entries = some first) (hsource₁ : Accepts first)
      (hsource₂ : ∀ second, lookup? "source2" entries = some second → Accepts second)
      (hfunction : operator = .apply →
        ∃ f name, lookup? "function" entries = some (.string name) ∧ Transform.IsCalled f name) :
      Accepts (.mapping entries)

/-- What the fields of an operation other than its operands say.  Only `apply` has a function. -/
structure Names (entries : List (Value × Value)) (operator : Operator)
    (function : Option Transform) : Prop where
  operation : lookup? "operation" entries = some (.string operator.name)
  taken : operator = .apply →
    ∃ f name, function = some f ∧ lookup? "function" entries = some (.string name) ∧
      Transform.IsCalled f name
  dropped : operator ≠ .apply → function = none

inductive Denotes : Value → Expression → Prop
  | column (name : String) : Denotes (.string name) (.column name)
  | overOne {entries : List (Value × Value)} {operator : Operator} {function : Option Transform}
      {first : Value} {source : Expression} (hnames : Names entries operator function)
      (hfirst : lookup? "source1" entries = some first) (hsource : Denotes first source)
      (habsent : lookup? "source2" entries = none) :
      Denotes (.mapping entries) (.overOne operator source function)
  | overTwo {entries : List (Value × Value)} {operator : Operator} {function : Option Transform}
      {first second : Value} {source₁ source₂ : Expression}
      (hnames : Names entries operator function)
      (hfirst : lookup? "source1" entries = some first) (hsource₁ : Denotes first source₁)
      (hsecond : lookup? "source2" entries = some second) (hsource₂ : Denotes second source₂) :
      Denotes (.mapping entries) (.overTwo operator source₁ source₂ function)

theorem accepts_of_denotes {v : Value} {e : Expression} (h : Denotes v e) : Accepts v := by
  induction h with
  | column name => exact .column name
  | overOne hnames hfirst _ habsent ih =>
      refine .operation hnames.operation hfirst ih ?_ ?_
      · intro second hsecond
        rw [habsent] at hsecond
        cases hsecond
      · intro hoperator
        obtain ⟨f, name, -, hfunction⟩ := hnames.taken hoperator
        exact ⟨f, name, hfunction⟩
  | overTwo hnames hfirst _ hsecond _ ih₁ ih₂ =>
      refine .operation hnames.operation hfirst ih₁ ?_ ?_
      · intro other hother
        rw [hsecond] at hother
        cases hother
        exact ih₂
      · intro hoperator
        obtain ⟨f, name, -, hfunction⟩ := hnames.taken hoperator
        exact ⟨f, name, hfunction⟩

theorem exists_names {entries : List (Value × Value)} {operator : Operator}
    (hoperator : lookup? "operation" entries = some (.string operator.name))
    (hfunction : operator = .apply →
      ∃ f name, lookup? "function" entries = some (.string name) ∧ Transform.IsCalled f name) :
    ∃ function, Names entries operator function := by
  by_cases happly : operator = .apply
  · obtain ⟨f, name, hname, hcalled⟩ := hfunction happly
    exact ⟨some f, hoperator, fun _ => ⟨f, name, rfl, hname, hcalled⟩, fun hne => absurd happly hne⟩
  · exact ⟨none, hoperator, fun h => absurd h happly, fun _ => rfl⟩

theorem accepts_iff {v : Value} : Accepts v ↔ ∃ e, Denotes v e := by
  constructor
  · intro h
    induction h with
    | column name => exact ⟨_, .column name⟩
    | @operation entries operator first hoperator hfirst _ _ hfunction ih₁ ih₂ =>
        obtain ⟨function, hnames⟩ := exists_names hoperator hfunction
        obtain ⟨source₁, hsource₁⟩ := ih₁
        cases hsecond : lookup? "source2" entries with
        | none => exact ⟨_, .overOne hnames hfirst hsource₁ hsecond⟩
        | some second =>
            obtain ⟨source₂, hsource₂⟩ := ih₂ second hsecond
            exact ⟨_, .overTwo hnames hfirst hsource₁ hsecond hsource₂⟩
  · rintro ⟨e, h⟩
    exact accepts_of_denotes h

/-! All that is wrong with a value, in the order in which it is read: the operator, the first
operand, the second operand, the function. -/

def operatorFaults (entries : List (Value × Value)) : List ConfigError :=
  match lookup? "operation" entries with
  | none => [.missingField "operation"]
  | some (.string name) =>
      if (Operator.ofName? name).isSome then [] else [.unsupportedOperator name]
  | some other => [Config.mismatch "operation" .string other]

def transformFaults : Option Value → List ConfigError
  | none => [.missingField "function"]
  | some (.string name) => if (Transform.ofName? name).isSome then [] else [.unknownFunction name]
  | some other => [Config.mismatch "function" .string other]

def functionFaults (entries : List (Value × Value)) : List ConfigError :=
  match lookup? "operation" entries with
  | some (.string "apply") => transformFaults (lookup? "function" entries)
  | _ => []

def faults (field : String) : Value → List ConfigError
  | .string _ => []
  | .mapping entries =>
      operatorFaults entries ++
        (match _first : lookup? "source1" entries with
          | none => [.missingField "source1"]
          | some first => faults "source1" first) ++
        (match _second : lookup? "source2" entries with
          | none => []
          | some second => faults "source2" second) ++
        functionFaults entries
  | other => [Config.mismatch field .operand other]
termination_by v => sizeOf v
decreasing_by
  · have := Value.sizeOf_lookup?_lt _first
    simp
    omega
  · have := Value.sizeOf_lookup?_lt _second
    simp
    omega

def firstFaults (entries : List (Value × Value)) : List ConfigError :=
  match lookup? "source1" entries with
  | none => [.missingField "source1"]
  | some first => faults "source1" first

def secondFaults (entries : List (Value × Value)) : List ConfigError :=
  match lookup? "source2" entries with
  | none => []
  | some second => faults "source2" second

theorem faults_mapping (field : String) (entries : List (Value × Value)) :
    faults field (.mapping entries) =
      operatorFaults entries ++ firstFaults entries ++ secondFaults entries ++
        functionFaults entries := by
  rw [faults, firstFaults, secondFaults]
  congr 1
  congr 1
  · congr 1
    split <;> simp_all
  · split <;> simp_all

end Grammar

end FeatureTable
