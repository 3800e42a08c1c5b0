import FeatureTable.Proofs.Expression.Grammar
import FeatureTable.Proofs.Reports

namespace FeatureTable

open Expression
open Yaml (Value)
open Yaml.Value (lookup?)

namespace Expression

def readFirst (v : Value) : Traced ConfigError Expression :=
  match v.field? "source1" with
  | none => Traced.fail (.missingField "source1")
  | some first => readOperand "source1" first

def readSecond (v : Value) : Traced ConfigError (Option Expression) :=
  match v.field? "source2" with
  | none => pure none
  | some second => some <$> readOperand "source2" second

theorem readOperation_eq (v : Value) :
    readOperation v = (do
      let name ← Traced.ofExcept (Config.getString v "operation")
      let operator ← readOperator name
      warnUnknown v operationFields s!"'{name}' operation"
      let source₁ ← readFirst v
      let source₂ ← readSecond v
      let function ← readFunction operator (v.field? "function")
      return operation operator source₁ source₂ function) := by
  rw [readOperation]
  refine bind_congr fun name => bind_congr fun operator => bind_congr fun _ => ?_
  congr 1
  · unfold readFirst
    split <;> simp_all
  · funext source₁
    congr 1
    unfold readSecond
    split <;> simp_all

end Expression

namespace Grammar

def operatorOf (v : Value) : Except ConfigError Operator :=
  Config.getString v "operation" >>= fun name => (readOperator name).outcome

def firstOf (v : Value) : Except ConfigError Expression :=
  match v.field? "source1" with
  | none => .error (.missingField "source1")
  | some first => (readOperand "source1" first).outcome

def secondOf (v : Value) : Except ConfigError (Option Expression) :=
  match v.field? "source2" with
  | none => .ok none
  | some second => some <$> (readOperand "source2" second).outcome

theorem outcome_readFirst (v : Value) : (readFirst v).outcome = firstOf v := by
  unfold readFirst firstOf
  cases v.field? "source1" <;> rfl

theorem outcome_readSecond (v : Value) : (readSecond v).outcome = secondOf v := by
  unfold readSecond secondOf
  cases v.field? "source2" with
  | none => rfl
  | some second => exact Traced.outcome_map _ _

theorem outcome_readOperation (v : Value) :
    (readOperation v).outcome =
      operatorOf v >>= fun operator => firstOf v >>= fun source₁ =>
        secondOf v >>= fun source₂ =>
          (readFunction operator (v.field? "function")).outcome >>= fun function =>
            .ok (operation operator source₁ source₂ function) := by
  rw [readOperation_eq]
  simp only [Traced.outcome_bind, Traced.outcome_ofExcept, outcome_warnUnknown, operatorOf,
    outcome_readFirst, outcome_readSecond, bind_assoc]
  rfl

theorem reports_operatorOf (v : Value) :
    Reports (fun operator => lookup? "operation" v.fields = some (.string operator.name))
      (operatorOf v) (operatorFaults v.fields) := by
  unfold operatorOf operatorFaults Config.getString
  rw [Value.field?_eq]
  cases lookup? "operation" v.fields with
  | none => exact .fails _ []
  | some operation =>
      cases operation with
      | string name =>
          show Reports _ (readOperator name).outcome
            (if (Operator.ofName? name).isSome then [] else [.unsupportedOperator name])
          unfold readOperator
          cases hoperator : Operator.ofName? name with
          | none => exact .fails _ []
          | some operator =>
              rw [Operator.ofName?_eq_some_iff.mp hoperator]
              exact .passes rfl
      | _ => exact .fails _ []

theorem functionFaults_of_ne_apply {entries : List (Value × Value)} {operator : Operator}
    (hoperator : lookup? "operation" entries = some (.string operator.name))
    (hne : operator ≠ .apply) : functionFaults entries = [] := by
  unfold functionFaults
  rw [hoperator]
  cases operator with
  | apply => exact absurd rfl hne
  | multiply | subtract | divide | add => rfl

theorem reports_readFunction_apply (v : Value)
    (hoperator : lookup? "operation" v.fields = some (.string Operator.apply.name)) :
    Reports (Names v.fields .apply) (readFunction .apply (v.field? "function")).outcome
      (functionFaults v.fields) := by
  unfold functionFaults
  rw [Value.field?_eq, hoperator]
  show Reports _ _ (transformFaults (lookup? "function" v.fields))
  cases hfunction : lookup? "function" v.fields with
  | none => exact .fails _ []
  | some function =>
      cases function with
      | string name =>
          show Reports _ (some <$> Traced.ofExcept (readFunctionName name)).outcome
            (if (Transform.ofName? name).isSome then [] else [.unknownFunction name])
          rw [Traced.outcome_map, Traced.outcome_ofExcept, readFunctionName]
          cases hname : Transform.ofName? name with
          | none => exact .fails _ []
          | some f =>
              exact .passes ⟨hoperator,
                fun _ => ⟨f, name, rfl, hfunction, Transform.ofName?_eq_some_iff.mp hname⟩,
                fun hne => absurd rfl hne⟩
      | _ => exact .fails _ []

theorem reports_readFunction (v : Value) {operator : Operator}
    (hoperator : lookup? "operation" v.fields = some (.string operator.name)) :
    Reports (Names v.fields operator) (readFunction operator (v.field? "function")).outcome
      (functionFaults v.fields) := by
  by_cases happly : operator = .apply
  · subst happly
    exact reports_readFunction_apply v hoperator
  · have hnone : (readFunction operator (v.field? "function")).outcome = .ok none := by
      cases operator with
      | apply => exact absurd rfl happly
      | multiply | subtract | divide | add => cases v.field? "function" <;> rfl
    rw [hnone, functionFaults_of_ne_apply hoperator happly]
    exact .passes ⟨hoperator, fun h => absurd h happly, fun _ => rfl⟩

def OperandsRead (v : Value) : Prop :=
  ∀ name w, lookup? name v.fields = some w →
    ∀ field, Reports (Denotes w) (readOperand field w).outcome (faults field w)

theorem reports_firstOf {v : Value} (h : OperandsRead v) :
    Reports (fun source => ∃ first, lookup? "source1" v.fields = some first ∧ Denotes first source)
      (firstOf v) (firstFaults v.fields) := by
  unfold firstOf firstFaults
  rw [Value.field?_eq]
  cases hfirst : lookup? "source1" v.fields with
  | none => exact .fails _ []
  | some first =>
      exact (h _ first hfirst "source1").mono fun source hsource => ⟨first, rfl, hsource⟩

theorem reports_secondOf {v : Value} (h : OperandsRead v) :
    Reports (fun source₂ => ∀ source₁ operator function,
        (∃ first, lookup? "source1" v.fields = some first ∧ Denotes first source₁) →
        Names v.fields operator function →
        Denotes (.mapping v.fields) (operation operator source₁ source₂ function))
      (secondOf v) (secondFaults v.fields) := by
  unfold secondOf secondFaults
  rw [Value.field?_eq]
  cases hsecond : lookup? "source2" v.fields with
  | none =>
      refine .passes ?_
      rintro source₁ operator function ⟨first, hfirst, hsource₁⟩ hnames
      exact .overOne hnames hfirst hsource₁ hsecond
  | some second =>
      refine (h _ second hsecond "source2").map fun source₂ hsource₂ => ?_
      rintro source₁ operator function ⟨first, hfirst, hsource₁⟩ hnames
      exact .overTwo hnames hfirst hsource₁ hsecond hsource₂

theorem reports_readOperation {v : Value} (h : OperandsRead v) (field : String) :
    Reports (Denotes (.mapping v.fields)) (readOperation v).outcome
      (faults field (.mapping v.fields)) := by
  rw [outcome_readOperation, faults_mapping, List.append_assoc, List.append_assoc,
    ← List.append_nil (functionFaults v.fields)]
  refine (reports_operatorOf v).bind fun operator hoperator => ?_
  refine (reports_firstOf h).bind fun source₁ hsource₁ => ?_
  refine (reports_secondOf h).bind fun source₂ hsource₂ => ?_
  refine (reports_readFunction v hoperator).bind fun function hnames => ?_
  exact .passes (hsource₂ source₁ operator function hsource₁ hnames)

theorem reports_readOperand (v : Value) :
    ∀ field, Reports (Denotes v) (readOperand field v).outcome (faults field v) := by
  induction v using Value.field_induction with
  | h v ih =>
      intro field
      cases v with
      | string name =>
          rw [readOperand, faults]
          exact .passes (.column name)
      | mapping entries =>
          rw [readOperand]
          exact reports_readOperation (v := .mapping entries) ih field
      | _ =>
          rw [readOperand, faults]
          · exact .fails _ []
          all_goals simp

theorem operandsRead (v : Value) : OperandsRead v :=
  fun _ w _ => reports_readOperand w

theorem operatorOf_of_names {entries : List (Value × Value)} {operator : Operator}
    {function : Option Transform} (h : Names entries operator function) :
    operatorOf (.mapping entries) = .ok operator := by
  unfold operatorOf Config.getString
  rw [Value.field?_eq, Value.fields_mapping, h.operation]
  show (readOperator operator.name).outcome = .ok operator
  rw [readOperator, Operator.ofName?_name]
  rfl

theorem readFunction_of_names {entries : List (Value × Value)} {operator : Operator}
    {function : Option Transform} (h : Names entries operator function) :
    (readFunction operator (lookup? "function" entries)).outcome = .ok function := by
  by_cases happly : operator = .apply
  · obtain ⟨f, name, rfl, hname, hcalled⟩ := h.taken happly
    rw [happly, hname]
    show (some <$> Traced.ofExcept (readFunctionName name)).outcome = .ok (some f)
    rw [Traced.outcome_map, Traced.outcome_ofExcept, readFunctionName,
      Transform.ofName?_eq_some_iff.mpr hcalled]
    rfl
  · rw [h.dropped happly]
    cases operator with
    | apply => exact absurd rfl happly
    | multiply | subtract | divide | add => cases lookup? "function" entries <;> rfl

theorem outcome_readOperation_of_names {entries : List (Value × Value)} {operator : Operator}
    {function : Option Transform} (hnames : Names entries operator function)
    {source₁ : Expression} (hfirst : firstOf (.mapping entries) = .ok source₁)
    {source₂ : Option Expression} (hsecond : secondOf (.mapping entries) = .ok source₂) :
    (readOperation (.mapping entries)).outcome =
      .ok (operation operator source₁ source₂ function) := by
  rw [outcome_readOperation, operatorOf_of_names hnames, hfirst, hsecond, Value.field?_eq,
    Value.fields_mapping]
  show ((readFunction operator (lookup? "function" entries)).outcome >>= fun function =>
    .ok (operation operator source₁ source₂ function)) = _
  rw [readFunction_of_names hnames]
  rfl

theorem outcome_readOperand_of_denotes {v : Value} {e : Expression} (h : Denotes v e)
    (field : String) : (readOperand field v).outcome = .ok e := by
  induction h generalizing field with
  | column name =>
      rw [readOperand]
      rfl
  | @overOne entries _ _ _ source hnames hfirst _ habsent ih =>
      have hsource : firstOf (.mapping entries) = .ok source := by
        rw [firstOf, Value.field?_eq, Value.fields_mapping, hfirst]
        exact ih "source1"
      have hnone : secondOf (.mapping entries) = .ok none := by
        rw [secondOf, Value.field?_eq, Value.fields_mapping, habsent]
      rw [readOperand]
      exact outcome_readOperation_of_names hnames hsource hnone
  | @overTwo entries _ _ _ _ source₁ source₂ hnames hfirst _ hsecond _ ih₁ ih₂ =>
      have hsource₁ : firstOf (.mapping entries) = .ok source₁ := by
        rw [firstOf, Value.field?_eq, Value.fields_mapping, hfirst]
        exact ih₁ "source1"
      have hsource₂ : secondOf (.mapping entries) = .ok (some source₂) := by
        rw [secondOf, Value.field?_eq, Value.fields_mapping, hsecond]
        exact congrArg (some <$> ·) (ih₂ "source2")
      rw [readOperand]
      exact outcome_readOperation_of_names hnames hsource₁ hsource₂

end Grammar

end FeatureTable
