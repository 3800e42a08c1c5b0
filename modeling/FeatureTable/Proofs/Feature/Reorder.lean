import FeatureTable.Proofs.Expression.Frame
import FeatureTable.Proofs.Feature.Run
import FeatureTable.Proofs.Table.Order

namespace FeatureTable

open Expression

/-- One of the definitions overwrites or reads what the other one defines. -/
def Definition.Dependent (d e : Definition) : Prop :=
  d.target = e.target ∨ Live (column e.target) d.expression ∨ Live (column d.target) e.expression

theorem Definition.Dependent.symm {d e : Definition} (h : d.Dependent e) : e.Dependent d := by
  rcases h with htarget | hleft | hright
  · exact Or.inl htarget.symm
  · exact Or.inr (Or.inr hleft)
  · exact Or.inr (Or.inl hright)

/-- Two runs end alike if both fail, or both succeed with the same columns. -/
inductive SameEnd : Except Interrupted Table → Except Interrupted Table → Prop
  | fails (left right : Interrupted) : SameEnd (.error left) (.error right)
  | succeeds {left right : Table} (h : left.SameColumns right) : SameEnd (.ok left) (.ok right)

namespace SameEnd

variable {x y z : Except Interrupted Table}

theorem refl (x : Except Interrupted Table) : SameEnd x x := by
  cases x with
  | error stop => exact .fails stop stop
  | ok t => exact .succeeds (.refl t)

theorem trans (h : SameEnd x y) (h' : SameEnd y z) : SameEnd x z := by
  cases h with
  | fails left _ =>
      cases h' with
      | fails _ right => exact .fails left right
  | succeeds h =>
      cases h' with
      | succeeds h' => exact .succeeds (h.trans h')

theorem exists_ok_iff (h : SameEnd x y) : (∃ t, x = .ok t) ↔ ∃ t, y = .ok t := by
  cases h <;> simp

theorem sameColumns (h : SameEnd x y) {t u : Table} (ht : x = .ok t) (hu : y = .ok u) :
    t.SameColumns u := by
  cases h with
  | fails => cases ht
  | succeeds h =>
      cases ht
      cases hu
      exact h

end SameEnd

theorem sameEnd_of_sameColumns {t u : ValidTable} (h : t.SameColumns u)
    (definitions : List Definition) :
    SameEnd (applyDefinitions t definitions).outcome (applyDefinitions u definitions).outcome := by
  induction definitions generalizing t u with
  | nil => exact .succeeds h
  | cons d definitions ih =>
      have hsame := outcome_evaluate_congr (e := d.expression) fun name _ => h name
      cases hvalues : (d.expression.evaluate u).outcome with
      | error fault =>
          rw [outcome_applyDefinitions_of_error hvalues,
            outcome_applyDefinitions_of_error (hsame.trans hvalues)]
          exact .fails _ _
      | ok values =>
          rw [outcome_applyDefinitions_of_ok hvalues,
            outcome_applyDefinitions_of_ok (hsame.trans hvalues)]
          exact ih (h.put d.target values)

/-- Over every valid table the two lists end alike. -/
def Interchangeable (left right : List Definition) : Prop :=
  ∀ t : ValidTable,
    SameEnd (applyDefinitions t left).outcome (applyDefinitions t right).outcome

namespace Interchangeable

variable {left middle right : List Definition}

theorem refl (definitions : List Definition) : Interchangeable definitions definitions :=
  fun _ => .refl _

theorem trans (h : Interchangeable left middle) (h' : Interchangeable middle right) :
    Interchangeable left right :=
  fun t => (h t).trans (h' t)

theorem cons (h : Interchangeable left right) (d : Definition) :
    Interchangeable (d :: left) (d :: right) := by
  intro t
  cases hvalues : (d.expression.evaluate t).outcome with
  | error fault =>
      rw [outcome_applyDefinitions_of_error hvalues, outcome_applyDefinitions_of_error hvalues]
      exact .fails _ _
  | ok values =>
      rw [outcome_applyDefinitions_of_ok hvalues, outcome_applyDefinitions_of_ok hvalues]
      exact h _

/-- Neither of two independent definitions sees whether the other one is done. -/
theorem swap {d e : Definition} (hindependent : ¬ d.Dependent e) (definitions : List Definition) :
    Interchangeable (d :: e :: definitions) (e :: d :: definitions) := by
  intro t
  simp only [Definition.Dependent, not_or] at hindependent
  obtain ⟨htarget, hreads, hread⟩ := hindependent
  have hd := outcome_evaluate_put_of_not_live hreads t
  have he := outcome_evaluate_put_of_not_live hread t
  cases hleft : (d.expression.evaluate t).outcome with
  | error fault =>
      rw [outcome_applyDefinitions_of_error hleft]
      cases hright : (e.expression.evaluate t).outcome with
      | error other =>
          rw [outcome_applyDefinitions_of_error hright]
          exact .fails _ _
      | ok values =>
          rw [outcome_applyDefinitions_of_ok hright,
            outcome_applyDefinitions_of_error ((hd values).trans hleft)]
          exact .fails _ _
  | ok values =>
      rw [outcome_applyDefinitions_of_ok hleft]
      cases hright : (e.expression.evaluate t).outcome with
      | error fault =>
          rw [outcome_applyDefinitions_of_error hright,
            outcome_applyDefinitions_of_error ((he values).trans hright)]
          exact .fails _ _
      | ok values' =>
          rw [outcome_applyDefinitions_of_ok hright,
            outcome_applyDefinitions_of_ok ((he values).trans hright),
            outcome_applyDefinitions_of_ok ((hd values').trans hleft)]
          exact sameEnd_of_sameColumns (Table.sameColumns_put_comm htarget t values values')
            definitions

theorem to_front {front : List Definition} {d : Definition}
    (hindependent : ∀ e ∈ front, ¬ d.Dependent e) (back : List Definition) :
    Interchangeable (d :: (front ++ back)) (front ++ d :: back) := by
  induction front with
  | nil => exact refl _
  | cons e front ih =>
      exact (swap (hindependent e List.mem_cons_self) (front ++ back)).trans
        ((ih fun other hother => hindependent other (List.mem_cons_of_mem _ hother)).cons e)

end Interchangeable

/-- The numbered definitions stand in another order, in which the numbers of any two that depend on
each other still rise. -/
structure Rearranges (order : List (Definition × Nat)) (numbered : List (Definition × Nat)) :
    Prop where
  perm : order.Perm numbered
  rising : order.Pairwise fun x y => x.1.Dependent y.1 → x.2 < y.2

/-- What stands before the first definition in the new order came after it and is independent of
it. -/
theorem Rearranges.exists_front {order : List (Definition × Nat)} {d : Definition}
    {definitions : List Definition} {first : Nat}
    (h : Rearranges order ((d :: definitions).zipIdx first)) :
    ∃ front back, order = front ++ (d, first) :: back ∧
      (∀ x ∈ front, ¬ d.Dependent x.1) ∧
      Rearranges (front ++ back) (definitions.zipIdx (first + 1)) := by
  rw [List.zipIdx_cons] at h
  obtain ⟨front, back, rfl⟩ := List.append_of_mem (h.perm.symm.subset List.mem_cons_self)
  have hperm : (front ++ back).Perm (definitions.zipIdx (first + 1)) :=
    (List.perm_middle.symm.trans h.perm).cons_inv
  refine ⟨front, back, rfl, ?_, hperm, ?_⟩
  · intro x hx hdependent
    have hlater : first + 1 ≤ x.2 :=
      (List.mem_zipIdx (hperm.subset (List.mem_append_left back hx))).1
    have hearlier : x.2 < first :=
      (List.pairwise_append.mp h.rising).2.2 x hx (d, first) List.mem_cons_self hdependent.symm
    omega
  · exact h.rising.sublist ((List.Sublist.refl front).append (List.sublist_cons_self _ back))

theorem interchangeable_of_rearranges {order : List (Definition × Nat)}
    {definitions : List Definition} {first : Nat}
    (h : Rearranges order (definitions.zipIdx first)) :
    Interchangeable definitions (order.map Prod.fst) := by
  induction definitions generalizing order first with
  | nil =>
      rw [List.perm_nil.mp h.perm]
      exact .refl _
  | cons d definitions ih =>
      obtain ⟨front, back, rfl, hindependent, hrest⟩ := h.exists_front
      have hfront : ∀ e ∈ front.map Prod.fst, ¬ d.Dependent e := by
        intro e he
        obtain ⟨x, hx, rfl⟩ := List.mem_map.mp he
        exact hindependent x hx
      have htail := (ih hrest).cons d
      rw [List.map_append] at htail ⊢
      exact htail.trans (.to_front hfront (back.map Prod.fst))

/-- The order of definitions matters only between those that depend on each other. -/
theorem applyDefinitions_rearranged {t : Table} (ht : t.Valid) {definitions : List Definition}
    {order : List (Definition × Nat)} (horder : Rearranges order definitions.zipIdx) :
    ((∃ v, (applyDefinitions t (order.map Prod.fst)).outcome = .ok v) ↔
      ∃ u, (applyDefinitions t definitions).outcome = .ok u) ∧
      ∀ u v, (applyDefinitions t definitions).outcome = .ok u →
        (applyDefinitions t (order.map Prod.fst)).outcome = .ok v →
          (∀ name, name ∈ u.names ↔ name ∈ v.names) ∧ u.height = v.height ∧
            (∀ name, u.column? name = v.column? name) ∧
            ∃ left right, u.names = t.names ++ left ∧ v.names = t.names ++ right ∧
              left.Perm right := by
  lift t to ValidTable using ht
  have hends := interchangeable_of_rearranges horder t
  refine ⟨hends.exists_ok_iff.symm, ?_⟩
  intro u v hu hv
  have hsame := hends.sameColumns hu hv
  have hboth : (t.applied hu).SameColumns (t.applied hv) := hsame
  exact ⟨hsame.mem_names, hboth.height, hsame,
    hboth.exists_perm (ValidTable.names_prefix_applied hu) (ValidTable.names_prefix_applied hv)⟩

theorem applyDefinitions_rearranged_three :
    (Table.mk [("a", [1, 2]), ("b", [3, 4])]).Valid ∧
      ∃ u v,
        (applyDefinitions (Table.mk [("a", [1, 2]), ("b", [3, 4])])
          [⟨"c", overTwo .multiply (column "a") (column "b") none⟩,
            ⟨"a", overTwo .add (column "c") (column "b") none⟩,
            ⟨"d", overTwo .apply (column "b") (column "c") (some .square)⟩]).outcome = .ok u ∧
        (applyDefinitions (Table.mk [("a", [1, 2]), ("b", [3, 4])])
          [⟨"d", overTwo .apply (column "b") (column "c") (some .square)⟩,
            ⟨"c", overTwo .multiply (column "a") (column "b") none⟩,
            ⟨"a", overTwo .add (column "c") (column "b") none⟩]).outcome = .ok v ∧
        u.names = ["a", "b", "c", "d"] ∧ v.names = ["a", "b", "d", "c"] ∧
        ∀ name, u.column? name = v.column? name := by
  have ht : (Table.mk [("a", [1, 2]), ("b", [3, 4])]).Valid := ⟨by decide, by decide⟩
  have horder : Rearranges
      [(⟨"d", overTwo .apply (column "b") (column "c") (some .square)⟩, 2),
        (⟨"c", overTwo .multiply (column "a") (column "b") none⟩, 0),
        (⟨"a", overTwo .add (column "c") (column "b") none⟩, 1)]
      (List.zipIdx [⟨"c", overTwo .multiply (column "a") (column "b") none⟩,
        ⟨"a", overTwo .add (column "c") (column "b") none⟩,
        ⟨"d", overTwo .apply (column "b") (column "c") (some .square)⟩]) :=
    ⟨by decide, by simp [Definition.Dependent]⟩
  exact ⟨ht, _, _, rfl, rfl, rfl, rfl,
    ((applyDefinitions_rearranged ht horder).2 _ _ rfl rfl).2.2.1⟩

end FeatureTable
