import Mathlib.Data.List.Forall2

namespace FeatureTable

theorem forall_mem_right {R : α → β → Prop} {P : β → Prop} {xs : List α} {ys : List β}
    (h : List.Forall₂ R xs ys) (hright : ∀ x y, R x y → P y) : ∀ y ∈ ys, P y := by
  induction h with
  | nil => exact List.forall_mem_nil P
  | cons hxy _ ih => exact List.forall_mem_cons.mpr ⟨hright _ _ hxy, ih⟩

theorem exists_right {R : α → β → Prop} {xs : List α} {ys : List β} (h : List.Forall₂ R xs ys)
    {place : Nat} {x : α} (hx : xs[place]? = some x) : ∃ y, ys[place]? = some y ∧ R x y := by
  obtain ⟨hlow, rfl⟩ := List.getElem?_eq_some_iff.mp hx
  have hlow' : place < ys.length := h.length_eq ▸ hlow
  exact ⟨ys[place], List.getElem?_eq_getElem hlow', h.get hlow hlow'⟩

/-- A result together with all faults that were looked for: either there are none and the result is
good, or the first of them is reported. -/
inductive Reports (Good : α → Prop) : Except ε α → List ε → Prop
  | passes {a : α} (h : Good a) : Reports Good (.ok a) []
  | fails (fault : ε) (later : List ε) : Reports Good (.error fault) (fault :: later)

namespace Reports

variable {Good : α → Prop} {Best : β → Prop} {x : Except ε α} {f : α → Except ε β}
  {faults later : List ε}

theorem bind (h : Reports Good x faults) (hf : ∀ a, Good a → Reports Best (f a) later) :
    Reports Best (x >>= f) (faults ++ later) := by
  cases h with
  | passes h => exact hf _ h
  | fails fault rest => exact .fails fault (rest ++ later)

theorem mono {Good' : α → Prop} (h : Reports Good x faults) (hgood : ∀ a, Good a → Good' a) :
    Reports Good' x faults := by
  cases h with
  | passes h => exact .passes (hgood _ h)
  | fails fault later => exact .fails fault later

theorem map {g : α → β} (h : Reports Good x faults) (hgood : ∀ a, Good a → Best (g a)) :
    Reports Best (g <$> x) faults := by
  cases h with
  | passes h => exact .passes (hgood _ h)
  | fails fault later => exact .fails fault later

theorem mapError {f : ε → δ} (h : Reports Good x faults) :
    Reports Good (x.mapError f) (faults.map f) := by
  cases h with
  | passes h => exact .passes h
  | fails fault later => exact .fails (f fault) (later.map f)

theorem good {a : α} (h : Reports Good x faults) (hx : x = .ok a) : Good a := by
  cases h with
  | passes h =>
      cases hx
      exact h
  | fails => cases hx

theorem result (h : Reports Good x faults) : Reports (fun a => x = .ok a) x faults := by
  cases h with
  | passes => exact .passes rfl
  | fails fault later => exact .fails fault later

theorem eq_error_iff (h : Reports Good x faults) {fault : ε} :
    x = .error fault ↔ faults.head? = some fault := by
  cases h with
  | passes => exact ⟨fun h => (by cases h), fun h => (by cases h)⟩
  | fails other later => simp

theorem exists_ok_iff (h : Reports Good x faults) : (∃ a, x = .ok a) ↔ faults = [] := by
  cases h with
  | passes => simp
  | fails => simp

theorem eq_ok_iff {a b : α} (h : Reports (fun c => c = a) x faults) :
    x = .ok b ↔ faults = [] ∧ b = a := by
  cases h with
  | passes h =>
      rw [h, Except.ok.injEq, eq_comm]
      exact (and_iff_right rfl).symm
  | fails => simp

theorem mapM {Good : α → β → Prop} {read : α → Except ε β} {faultsOf : α → List ε} {xs : List α}
    (h : ∀ x ∈ xs, Reports (Good x) (read x) (faultsOf x)) :
    Reports (List.Forall₂ Good xs) (xs.mapM read) (xs.flatMap faultsOf) := by
  induction xs with
  | nil => exact .passes .nil
  | cons x xs ih =>
      rw [List.mapM_cons, List.flatMap_cons, ← List.append_nil (xs.flatMap faultsOf)]
      refine (h x List.mem_cons_self).bind fun y hy => ?_
      refine (ih fun other hother => h other (List.mem_cons_of_mem _ hother)).bind fun ys hys => ?_
      exact .passes (.cons hy hys)

/-- A loop keeps a result that is good for what the loop has gone through. -/
theorem foldlM {Good : List α → β → Prop} {step : β → α → Except ε β} {faultsOf : α → List ε}
    {xs : List α} {start : β} (hstart : Good [] start)
    (hstep : ∀ done x rest, xs = done ++ x :: rest → ∀ b, Good done b →
      Reports (Good (done ++ [x])) (step b x) (faultsOf x)) :
    Reports (Good xs) (xs.foldlM step start) (xs.flatMap faultsOf) := by
  induction xs generalizing Good start with
  | nil => exact .passes hstart
  | cons x xs ih =>
      rw [List.foldlM_cons, List.flatMap_cons]
      refine (hstep [] x xs rfl start hstart).bind fun next hnext => ?_
      refine @ih (fun done => Good (x :: done)) next hnext fun done y rest hsplit => ?_
      exact hstep (x :: done) y rest (congrArg _ hsplit)

end Reports

end FeatureTable
