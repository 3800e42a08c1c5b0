import FeatureTable.Proofs.Expression.Outcome

namespace FeatureTable

open Float.Model

/-! Two floats have one sum and one product, in whatever order they are taken.  There is one float
that is not a number, so that this holds without exception. -/

theorem unpacked_add_comm (format : Format) (x y : UnpackedFloat) :
    x.add format y = y.add format x := by
  cases x with
  | notANumber => cases y <;> rfl
  | infinity s =>
      cases y with
      | infinity s' => cases s <;> cases s' <;> rfl
      | notANumber | zero | finite => rfl
  | zero s =>
      cases y with
      | zero s' => cases s <;> cases s' <;> rfl
      | notANumber | infinity | finite => rfl
  | finite s m e hm =>
      cases y with
      | finite s' m' e' hm' =>
          change UnpackedFloat.normalize format
              (s.apply (UnpackedFloat.decreaseExponent m e (min e e')).1 +
                s'.apply (UnpackedFloat.decreaseExponent m' e' (min e e')).1)
              (min e e') .positive =
            UnpackedFloat.normalize format
              (s'.apply (UnpackedFloat.decreaseExponent m' e' (min e' e)).1 +
                s.apply (UnpackedFloat.decreaseExponent m e (min e' e)).1)
              (min e' e) .positive
          rw [Int.min_comm e e', Int.add_comm]
      | notANumber | infinity | zero => rfl

theorem sign_mul_comm (s s' : UnpackedFloat.Sign) : s * s' = s' * s := by
  cases s <;> cases s' <;> rfl

theorem unpacked_mul_comm (format : Format) (x y : UnpackedFloat) :
    x.mul format y = y.mul format x := by
  cases x with
  | notANumber => cases y <;> rfl
  | infinity s =>
      cases y with
      | infinity s' | finite s' => exact congrArg UnpackedFloat.infinity (sign_mul_comm s s')
      | notANumber | zero => rfl
  | zero s =>
      cases y with
      | zero s' | finite s' => exact congrArg UnpackedFloat.zero (sign_mul_comm s s')
      | notANumber | infinity => rfl
  | finite s m e =>
      cases y with
      | infinity s' => exact congrArg UnpackedFloat.infinity (sign_mul_comm s s')
      | zero s' => exact congrArg UnpackedFloat.zero (sign_mul_comm s s')
      | finite s' m' e' =>
          change UnpackedFloat.roundWithAccuracy format (s * s') (m * m') (e + e') .exact =
            UnpackedFloat.roundWithAccuracy format (s' * s) (m' * m) (e' + e) .exact
          rw [sign_mul_comm s s', Nat.mul_comm m m', Int.add_comm e e']
      | notANumber => rfl

theorem float_add_comm (x y : Float) : x + y = y + x :=
  congrArg (fun u => Float.ofModel (pack u))
    (unpacked_add_comm Format.binary64 x.toModel.unpack y.toModel.unpack)

theorem float_mul_comm (x y : Float) : x * y = y * x :=
  congrArg (fun u => Float.ofModel (pack u))
    (unpacked_mul_comm Format.binary64 x.toModel.unpack y.toModel.unpack)

def Operator.isCommutative : Operator → Bool
  | multiply | add => true
  | apply | subtract | divide => false

theorem Operator.run_comm {operator : Operator} {op : Arithmetic}
    (hcommutative : operator.isCommutative = true) (hop : operator.arithmetic? = some op)
    (x y : Float) : op.run x y = op.run y x := by
  cases operator with
  | multiply =>
      cases hop
      exact float_mul_comm x y
  | add =>
      cases hop
      exact float_add_comm x y
  | apply | subtract | divide => cases hcommutative

namespace Expression

variable {t : Table} {operator : Operator} {op : Arithmetic} {e e' source source' source₁ source₁'
  source₂ source₂' : Expression} {function : Option Transform} {values : Column}

inductive Operand where
  | first
  | second

/-- The operands of all operations at the chosen places are exchanged, if the operator allows it.  A
place is the way to it from the root. -/
def exchange (chosen : List Operand → Bool) : Expression → Expression
  | .column name => .column name
  | .overOne operator source function =>
      .overOne operator (source.exchange fun place => chosen (.first :: place)) function
  | .overTwo operator source₁ source₂ function =>
      let source₁ := source₁.exchange fun place => chosen (.first :: place)
      let source₂ := source₂.exchange fun place => chosen (.second :: place)
      if chosen [] && operator.isCommutative then .overTwo operator source₂ source₁ function
      else .overTwo operator source₁ source₂ function

theorem bind_eq_ok_iff {x : Except ε α} {f : α → Except ε β} {b : β} :
    x >>= f = .ok b ↔ ∃ a, x = .ok a ∧ f a = .ok b := by
  cases x with
  | error fault => exact ⟨fun h => (by cases h), fun ⟨_, h, _⟩ => (by cases h)⟩
  | ok a => exact ⟨fun h => ⟨a, rfl, h⟩, fun ⟨_, h, hb⟩ => (by cases h; exact hb)⟩

theorem mapError_eq_ok_iff {x : Except ε α} {f : ε → δ} {a : α} :
    x.mapError f = .ok a ↔ x = .ok a := by
  cases x with
  | error e => constructor <;> nofun
  | ok b =>
      constructor
      · intro h
        cases h
        rfl
      · intro h
        cases h
        rfl

theorem combine_eq_ok_iff {left right : Column} :
    combine op left right = .ok values ↔
      left.length = right.length ∧ values = List.zipWith op.run left right := by
  unfold combine
  split <;> simp_all [eq_comm]

theorem outcome_overOne_eq_ok_iff :
    ((overOne operator source function).evaluate t).outcome = .ok values ↔
      ∃ left, (source.evaluate t).outcome = .ok left ∧
        finish operator left none function = .ok values := by
  rw [outcome_evaluate_overOne, bind_eq_ok_iff]

theorem outcome_overTwo_eq_ok_iff (hop : operator.arithmetic? = some op) :
    ((overTwo operator source₁ source₂ function).evaluate t).outcome = .ok values ↔
      ∃ left right, (source₁.evaluate t).outcome = .ok left ∧
        (source₂.evaluate t).outcome = .ok right ∧
        left.length = right.length ∧ values = List.zipWith op.run left right := by
  simp only [outcome_evaluate_overTwo hop, bind_eq_ok_iff, mapError_eq_ok_iff, combine_eq_ok_iff]
  exact exists_congr fun left => exists_and_left.symm

/-- Both have a column or neither has, and both have the same. -/
def SameColumn (t : Table) (e e' : Expression) : Prop :=
  ∀ values, (e.evaluate t).outcome = .ok values ↔ (e'.evaluate t).outcome = .ok values

theorem SameColumn.trans {e'' : Expression} (h : SameColumn t e e') (h' : SameColumn t e' e'') :
    SameColumn t e e'' :=
  fun values => (h values).trans (h' values)

theorem SameColumn.overOne (h : SameColumn t source source') (operator : Operator)
    (function : Option Transform) :
    SameColumn t (.overOne operator source function) (.overOne operator source' function) := by
  intro values
  rw [outcome_overOne_eq_ok_iff, outcome_overOne_eq_ok_iff]
  exact exists_congr fun left => and_congr_left' (h left)

theorem SameColumn.overTwo (h₁ : SameColumn t source₁ source₁') (h₂ : SameColumn t source₂ source₂')
    (operator : Operator) (function : Option Transform) :
    SameColumn t (.overTwo operator source₁ source₂ function)
      (.overTwo operator source₁' source₂' function) := by
  intro values
  cases hop : operator.arithmetic? with
  | none =>
      rw [Operator.arithmetic?_eq_none_iff.mp hop, evaluate_apply_overTwo, evaluate_apply_overTwo]
      exact h₁.overOne .apply function values
  | some op =>
      rw [outcome_overTwo_eq_ok_iff hop, outcome_overTwo_eq_ok_iff hop]
      refine exists_congr fun left => exists_congr fun right => ?_
      rw [h₁ left, h₂ right]

theorem sameColumn_swap (hcommutative : operator.isCommutative = true)
    (source₁ source₂ : Expression) (function : Option Transform) :
    SameColumn t (.overTwo operator source₁ source₂ function)
      (.overTwo operator source₂ source₁ function) := by
  obtain ⟨op, hop⟩ : ∃ op, operator.arithmetic? = some op := by
    apply Operator.exists_arithmetic?
    rintro rfl
    cases hcommutative
  have hswap : ∀ left right : Column,
      List.zipWith op.run left right = List.zipWith op.run right left := by
    intro left right
    rw [List.zipWith_comm]
    congr 1
    funext x y
    exact Operator.run_comm hcommutative hop y x
  intro values
  rw [outcome_overTwo_eq_ok_iff hop, outcome_overTwo_eq_ok_iff hop, exists_comm]
  refine exists_congr fun right => exists_congr fun left => ?_
  rw [hswap left right, eq_comm (a := left.length), and_left_comm]

/-- Sums and products have the same column after their operands have been exchanged, at whatever
places of an expression. -/
theorem outcome_evaluate_exchange (t : Table) (chosen : List Operand → Bool) (e : Expression)
    (values : Column) :
    ((e.exchange chosen).evaluate t).outcome = .ok values ↔
      (e.evaluate t).outcome = .ok values := by
  suffices h : SameColumn t (e.exchange chosen) e from h values
  induction e generalizing chosen with
  | column name => exact fun _ => Iff.rfl
  | overOne operator source function ih => exact (ih _).overOne operator function
  | overTwo operator source₁ source₂ function ih₁ ih₂ =>
      have hkept := (ih₁ fun place => chosen (.first :: place)).overTwo
        (ih₂ fun place => chosen (.second :: place)) operator function
      rw [exchange]
      split
      · rename_i hexchanged
        rw [Bool.and_eq_true] at hexchanged
        exact (sameColumn_swap hexchanged.2 _ _ function).trans hkept
      · exact hkept

end Expression

end FeatureTable
