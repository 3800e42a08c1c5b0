import FeatureTable.Traced
import Mathlib.Data.List.Forall2

namespace FeatureTable.Traced

theorem outcome_mapM (f : α → Traced ε β) (xs : List α) :
    (xs.mapM f).outcome = xs.mapM fun x => (f x).outcome := by
  induction xs with
  | nil => rfl
  | cons x xs ih =>
      rw [List.mapM_cons, List.mapM_cons, outcome_bind]
      refine bind_congr fun y => ?_
      rw [outcome_bind, ih]
      rfl

theorem exists_of_bind {x : Traced ε α} {f : α → Traced ε β} {b : β}
    (h : (x >>= f).outcome = .ok b) : ∃ a, x.outcome = .ok a ∧ (f a).outcome = .ok b := by
  rw [outcome_bind] at h
  cases hx : x.outcome with
  | error fault =>
      rw [hx] at h
      cases h
  | ok a =>
      rw [hx] at h
      exact ⟨a, rfl, h⟩

theorem exists_of_recover {x : Traced ε α} {f : ε → Traced δ α} {a : α}
    (hf : ∀ e, ∃ e', (f e).outcome = .error e') (h : (x.recover f).outcome = .ok a) :
    x.outcome = .ok a := by
  rw [outcome_recover] at h
  cases hx : x.outcome with
  | error e =>
      obtain ⟨e', he'⟩ := hf e
      rw [hx] at h
      exact absurd (he'.symm.trans h) (by simp)
  | ok b =>
      rw [hx] at h
      cases h
      rfl

theorem exists_of_mem_mapM {f : α → Traced ε β} {xs : List α} {ys : List β}
    (h : (xs.mapM f).outcome = .ok ys) {y : β} (hy : y ∈ ys) :
    ∃ x ∈ xs, (f x).outcome = .ok y := by
  induction xs generalizing ys with
  | nil =>
      rw [List.mapM_nil] at h
      cases h
      cases hy
  | cons x xs ih =>
      rw [List.mapM_cons] at h
      obtain ⟨first, hfirst, h⟩ := exists_of_bind h
      obtain ⟨rest, hrest, h⟩ := exists_of_bind h
      cases h
      rcases List.mem_cons.mp hy with rfl | hmem
      · exact ⟨x, List.mem_cons_self, hfirst⟩
      · obtain ⟨other, hother, hread⟩ := ih hrest hmem
        exact ⟨other, List.mem_cons_of_mem _ hother, hread⟩

def withoutWarnings (x : Traced ε α) : Traced ε α :=
  ⟨x.outcome, x.events.filter fun event => event.level ≠ .warn⟩

@[simp] theorem outcome_withoutWarnings (x : Traced ε α) :
    x.withoutWarnings.outcome = x.outcome := rfl

theorem withoutWarnings_bind (x : Traced ε α) (f : α → Traced ε β) :
    (x >>= f).withoutWarnings = x.withoutWarnings >>= fun a => (f a).withoutWarnings := by
  obtain ⟨outcome, events⟩ := x
  cases outcome with
  | error e => rfl
  | ok a => exact ext rfl (List.filter_append _ _)

theorem withoutWarnings_recover (x : Traced ε α) (f : ε → Traced δ α) :
    (x.recover f).withoutWarnings = x.withoutWarnings.recover fun e => (f e).withoutWarnings := by
  obtain ⟨outcome, events⟩ := x
  cases outcome with
  | error e => exact ext rfl (List.filter_append _ _)
  | ok a => rfl

theorem withoutWarnings_bind_congr {x y : Traced ε α} {f g : α → Traced ε β}
    (h : x.withoutWarnings = y.withoutWarnings)
    (hfg : ∀ a, x.outcome = .ok a → (f a).withoutWarnings = (g a).withoutWarnings) :
    (x >>= f).withoutWarnings = (y >>= g).withoutWarnings := by
  rw [withoutWarnings_bind, withoutWarnings_bind, ← h]
  obtain ⟨outcome, events⟩ := x
  cases outcome with
  | error e => rfl
  | ok a =>
      show (⟨(f a).withoutWarnings.outcome, _ ++ (f a).withoutWarnings.events⟩ : Traced ε β) =
        ⟨(g a).withoutWarnings.outcome, _ ++ (g a).withoutWarnings.events⟩
      rw [hfg a rfl]

theorem withoutWarnings_mapM_congr {f : α → Traced ε β} {xs ys : List α}
    (h : List.Forall₂ (fun x y => (f x).withoutWarnings = (f y).withoutWarnings) xs ys) :
    (xs.mapM f).withoutWarnings = (ys.mapM f).withoutWarnings := by
  induction h with
  | nil => rfl
  | cons hxy _ ih =>
      rw [List.mapM_cons, List.mapM_cons]
      refine withoutWarnings_bind_congr hxy fun b _ => ?_
      exact withoutWarnings_bind_congr ih fun bs _ => rfl

end FeatureTable.Traced
