import Mathlib.Data.List.Basic

namespace FeatureTable

/-! The first fault of a list comes from the first element that is at fault. -/

/-- The first element with a property, and its place. -/
structure FirstAt (P : α → Prop) (xs : List α) (place : Nat) (x : α) : Prop where
  here : xs[place]? = some x
  holds : P x
  before : ∀ earlier y, earlier < place → xs[earlier]? = some y → ¬ P y

variable {P Q : α → Prop} {x y : α} {xs : List α} {place start : Nat} {fault : ε}

theorem firstAt_cons_zero : FirstAt P (x :: xs) 0 y ↔ y = x ∧ P x := by
  constructor
  · intro h
    cases h.here
    exact ⟨rfl, h.holds⟩
  · rintro ⟨rfl, hx⟩
    exact ⟨rfl, hx, fun _ _ hlow => absurd hlow (Nat.not_lt_zero _)⟩

theorem firstAt_cons_succ : FirstAt P (x :: xs) (place + 1) y ↔ ¬ P x ∧ FirstAt P xs place y := by
  constructor
  · intro h
    exact ⟨h.before 0 x (Nat.succ_pos _) rfl, h.here, h.holds,
      fun earlier z hlow => h.before (earlier + 1) z (Nat.succ_lt_succ hlow)⟩
  · rintro ⟨hx, h⟩
    refine ⟨h.here, h.holds, fun earlier z hlow hz => ?_⟩
    cases earlier with
    | zero =>
        cases hz
        exact hx
    | succ earlier => exact h.before earlier z (Nat.lt_of_succ_lt_succ hlow) hz

theorem exists_firstAt_cons {Q : Nat → α → Prop} :
    (∃ place y, FirstAt P (x :: xs) place y ∧ Q place y) ↔
      P x ∧ Q 0 x ∨ ¬ P x ∧ ∃ place y, FirstAt P xs place y ∧ Q (place + 1) y := by
  constructor
  · rintro ⟨place, y, h, hq⟩
    cases place with
    | zero =>
        obtain ⟨rfl, hx⟩ := firstAt_cons_zero.mp h
        exact .inl ⟨hx, hq⟩
    | succ place =>
        obtain ⟨hx, hrest⟩ := firstAt_cons_succ.mp h
        exact .inr ⟨hx, place, y, hrest, hq⟩
  · rintro (⟨hx, hq⟩ | ⟨hx, place, y, hrest, hq⟩)
    · exact ⟨0, x, firstAt_cons_zero.mpr ⟨rfl, hx⟩, hq⟩
    · exact ⟨place + 1, y, firstAt_cons_succ.mpr ⟨hx, hrest⟩, hq⟩

theorem FirstAt.imp (h : FirstAt P xs place x) (hx : P x → Q x) (hback : ∀ y, Q y → P y) :
    FirstAt Q xs place x :=
  ⟨h.here, hx h.holds, fun earlier y hlow hy hq => h.before earlier y hlow hy (hback y hq)⟩

/-- The first of the elements that pass is the first that passes and has the property. -/
theorem FirstAt.of_filter {p : α → Bool} (h : FirstAt P (xs.filter p) place x) :
    ∃ place, FirstAt (fun y => p y = true ∧ P y) xs place x := by
  induction xs generalizing place with
  | nil => cases h.here
  | cons y ys ih =>
      by_cases hy : p y = true
      · rw [List.filter_cons_of_pos hy] at h
        cases place with
        | zero =>
            obtain ⟨rfl, hx⟩ := firstAt_cons_zero.mp h
            exact ⟨0, firstAt_cons_zero.mpr ⟨rfl, hy, hx⟩⟩
        | succ place =>
            obtain ⟨hnot, hrest⟩ := firstAt_cons_succ.mp h
            obtain ⟨place, hfirst⟩ := ih hrest
            exact ⟨place + 1, firstAt_cons_succ.mpr ⟨fun hboth => hnot hboth.2, hfirst⟩⟩
      · rw [List.filter_cons_of_neg hy] at h
        obtain ⟨place, hfirst⟩ := ih h
        exact ⟨place + 1, firstAt_cons_succ.mpr ⟨fun hboth => hy hboth.1, hfirst⟩⟩

/-- Of paired elements the first is at the place of the first of them. -/
theorem firstAt_zip {names : List β} {name : β} (hlength : names.length = xs.length) :
    FirstAt (fun entry => P entry.2) (names.zip xs) place (name, x) ↔
      names[place]? = some name ∧ FirstAt P xs place x := by
  constructor
  · intro h
    obtain ⟨hname, hx⟩ := List.getElem?_zip_eq_some.mp h.here
    refine ⟨hname, hx, h.holds, fun earlier y hlow hy => ?_⟩
    have hearlier : earlier < names.length := hlength ▸ (List.getElem?_eq_some_iff.mp hy).1
    exact h.before earlier (names[earlier], y) hlow
      (List.getElem?_zip_eq_some.mpr ⟨List.getElem?_eq_getElem hearlier, hy⟩)
  · rintro ⟨hname, h⟩
    refine ⟨List.getElem?_zip_eq_some.mpr ⟨hname, h.here⟩, h.holds, ?_⟩
    intro earlier entry hlow hentry
    exact h.before earlier entry.2 hlow (List.getElem?_zip_eq_some.mp hentry).2

theorem find?_eq_some_iff_firstAt {p : α → Bool} (hp : ∀ y, p y = true ↔ P y) :
    xs.find? p = some x ↔ ∃ place, FirstAt P xs place x := by
  rw [List.find?_eq_some_iff_getElem]
  constructor
  · rintro ⟨hx, place, hplace, rfl, hbefore⟩
    refine ⟨place, List.getElem?_eq_getElem hplace, (hp _).mp hx, fun earlier y hlow hy => ?_⟩
    obtain ⟨-, rfl⟩ := List.getElem?_eq_some_iff.mp hy
    rw [← hp]
    simpa using hbefore earlier hlow
  · rintro ⟨place, h⟩
    obtain ⟨hplace, rfl⟩ := List.getElem?_eq_some_iff.mp h.here
    refine ⟨(hp _).mpr h.holds, place, hplace, rfl, fun earlier hlow => ?_⟩
    have hclean := h.before earlier _ hlow (List.getElem?_eq_getElem (Nat.lt_trans hlow hplace))
    rw [← hp] at hclean
    simpa using hclean

theorem head?_append_eq_some_iff {faults later : List ε} :
    (faults ++ later).head? = some fault ↔
      faults.head? = some fault ∨ faults = [] ∧ later.head? = some fault := by
  rw [List.head?_append, Option.or_eq_some_iff, List.head?_eq_none_iff]

/-- The elements are numbered from the start. -/
theorem head?_flatMap_zipIdx {faultsOf : Nat → α → List ε}
    (h : ∀ number x, faultsOf number x = [] ↔ ¬ P x) (start : Nat) (xs : List α) :
    ((xs.zipIdx start).flatMap fun entry => faultsOf entry.2 entry.1).head? = some fault ↔
      ∃ place x, FirstAt P xs place x ∧ (faultsOf (start + place) x).head? = some fault := by
  induction xs generalizing start with
  | nil =>
      constructor
      · intro hhead
        cases hhead
      · rintro ⟨_, _, hfirst, -⟩
        cases hfirst.here
  | cons x xs ih =>
      rw [List.zipIdx_cons, List.flatMap_cons, head?_append_eq_some_iff, ih, h,
        exists_firstAt_cons]
      simp only [Nat.add_zero, Nat.add_right_comm start 1, Nat.add_assoc start]
      refine or_congr_left ?_
      constructor
      · intro hhead
        refine ⟨?_, hhead⟩
        by_contra hx
        rw [(h start x).mpr hx] at hhead
        cases hhead
      · exact And.right

theorem head?_flatMap {faultsOf : α → List ε} (h : ∀ x, faultsOf x = [] ↔ ¬ P x) (xs : List α) :
    (xs.flatMap faultsOf).head? = some fault ↔
      ∃ place x, FirstAt P xs place x ∧ (faultsOf x).head? = some fault := by
  have hnumbered : xs.flatMap faultsOf = (xs.zipIdx 0).flatMap fun entry => faultsOf entry.1 := by
    rw [← List.flatMap_map Prod.fst faultsOf, List.zipIdx_map_fst]
  rw [hnumbered]
  exact head?_flatMap_zipIdx (fun _ => h) 0 xs

/-- Where each element has one fault or none, the first that has one is reported. -/
theorem head?_flatMap_single {faultsOf : α → List ε} {faultOf : α → ε}
    (hnone : ∀ x, ¬ P x → faultsOf x = []) (hone : ∀ x, P x → faultsOf x = [faultOf x])
    (xs : List α) :
    (xs.flatMap faultsOf).head? = some fault ↔
      ∃ place x, FirstAt P xs place x ∧ fault = faultOf x := by
  have hnil : ∀ x, faultsOf x = [] ↔ ¬ P x := fun x => by
    refine ⟨fun h hx => ?_, hnone x⟩
    rw [hone x hx] at h
    cases h
  rw [head?_flatMap hnil]
  refine exists_congr fun place => exists_congr fun x => and_congr_right fun h => ?_
  rw [hone x h.holds, List.head?_cons, Option.some.injEq, eq_comm]

end FeatureTable
