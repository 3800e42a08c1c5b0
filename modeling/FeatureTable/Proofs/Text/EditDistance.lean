import FeatureTable.Text.EditDistance

namespace FeatureTable.Text

/-! A text is turned into another by edits of single characters.  The distance of two texts is the
least number of edits that does it, and with it a metric. -/

variable {s t u source target done : List Char} {c d : Char} {m n k diagonal left : Nat}
  {row cells : List Nat}

inductive Edit : List Char → List Char → Prop
  | insert (before after : List Char) (c : Char) : Edit (before ++ after) (before ++ c :: after)
  | delete (before after : List Char) (c : Char) : Edit (before ++ c :: after) (before ++ after)
  | replace (before after : List Char) (c d : Char) :
      Edit (before ++ c :: after) (before ++ d :: after)

inductive Edits : Nat → List Char → List Char → Prop
  | refl (s : List Char) : Edits 0 s s
  | step {s t u : List Char} {n : Nat} (hfirst : Edit s t) (hrest : Edits n t u) :
      Edits (n + 1) s u

structure Fewest (s t : List Char) (n : Nat) : Prop where
  reached : Edits n s t
  least : ∀ m, Edits m s t → n ≤ m

theorem Fewest.unique (hm : Fewest s t m) (hn : Fewest s t n) : m = n :=
  Nat.le_antisymm (hm.least n hn.reached) (hn.least m hm.reached)

theorem Edit.symm (h : Edit s t) : Edit t s := by
  cases h with
  | insert before after c => exact .delete before after c
  | delete before after c => exact .insert before after c
  | replace before after c d => exact .replace before after d c

theorem Edits.append (hs : Edits m s t) (ht : Edits n t u) : Edits (m + n) s u := by
  induction hs with
  | refl s => rwa [Nat.zero_add]
  | step hfirst _ ih =>
      rw [Nat.succ_add]
      exact .step hfirst (ih ht)

theorem Edits.then (h : Edits n s t) (hlast : Edit t u) : Edits (n + 1) s u :=
  h.append (.step hlast (.refl u))

theorem Edits.symm (h : Edits n s t) : Edits n t s := by
  induction h with
  | refl s => exact .refl s
  | step hfirst _ ih => exact ih.then hfirst.symm

theorem edits_zero_iff : Edits 0 s t ↔ s = t := by
  constructor
  · intro h
    cases h
    rfl
  · intro hsame
    subst hsame
    exact .refl s

theorem Fewest.symm (h : Fewest s t n) : Fewest t s n where
  reached := h.reached.symm
  least := fun m hm => h.least m hm.symm

theorem Fewest.eq_zero_iff (h : Fewest s t n) : n = 0 ↔ s = t := by
  constructor
  · intro hzero
    subst hzero
    exact edits_zero_iff.mp h.reached
  · intro hsame
    exact Nat.le_zero.mp (h.least 0 (edits_zero_iff.mpr hsame))

theorem Fewest.triangle (hwhole : Fewest s u k) (hs : Fewest s t m) (ht : Fewest t u n) :
    k ≤ m + n :=
  hwhole.least _ (hs.reached.append ht.reached)

theorem Edits.min (hm : Edits m s t) (hn : Edits n s t) : Edits (min m n) s t := by
  rcases Nat.le_total m n with h | h
  · rwa [Nat.min_eq_left h]
  · rwa [Nat.min_eq_right h]

theorem Edit.concat (h : Edit s t) (c : Char) : Edit (s ++ [c]) (t ++ [c]) := by
  cases h with
  | insert before after d => simpa using Edit.insert before (after ++ [c]) d
  | delete before after d => simpa using Edit.delete before (after ++ [c]) d
  | replace before after d e => simpa using Edit.replace before (after ++ [c]) d e

theorem Edits.concat (h : Edits n s t) (c : Char) : Edits n (s ++ [c]) (t ++ [c]) := by
  induction h with
  | refl s => exact .refl _
  | step hfirst _ ih => exact .step (hfirst.concat c) ih

theorem edit_insert_last (s : List Char) (c : Char) : Edit s (s ++ [c]) := by
  simpa using Edit.insert s [] c

theorem edit_delete_last (s : List Char) (c : Char) : Edit (s ++ [c]) s := by
  simpa using Edit.delete s [] c

theorem Edit.length_le (h : Edit s t) : s.length ≤ t.length + 1 := by
  cases h <;> simp <;> omega

theorem Edits.length_le (h : Edits n s t) : s.length ≤ t.length + n := by
  induction h with
  | refl s => exact Nat.le_refl _
  | step hfirst _ ih =>
      have hone := hfirst.length_le
      omega

theorem fewest_to_nil (s : List Char) : Fewest s [] s.length where
  reached := by
    induction s with
    | nil => exact .refl []
    | cons c s ih => exact .step (.delete [] s c) ih
  least := fun m h => by simpa using h.length_le

theorem fewest_from_nil (t : List Char) : Fewest [] t t.length :=
  (fewest_to_nil t).symm

/-- A text in two parts ends with the second part, or with the first if there is no second. -/
theorem parts_of_concat {before after : List Char} (h : s ++ [c] = before ++ after) :
    (after = [] ∧ before = s ++ [c]) ∨ ∃ front, after = front ++ [c] ∧ s = before ++ front := by
  rcases List.eq_nil_or_concat after with rfl | ⟨front, last, rfl⟩
  · exact .inl ⟨rfl, by rw [h, List.append_nil]⟩
  · rw [List.concat_eq_append, ← List.append_assoc] at h
    obtain ⟨hfront, hlast⟩ := List.append_inj' h rfl
    exact .inr ⟨front, by rw [List.concat_eq_append, hlast], hfront⟩

theorem Edit.of_concat (h : Edit (s ++ [c]) u) :
    (∃ s', Edit s s' ∧ u = s' ++ [c]) ∨ u = s ∨ (∃ d, u = s ++ [d]) ∨ ∃ d, u = s ++ [c] ++ [d] := by
  generalize hwhole : s ++ [c] = whole at h
  cases h with
  | insert before after d =>
      rcases parts_of_concat hwhole with ⟨rfl, rfl⟩ | ⟨front, rfl, rfl⟩
      · exact .inr (.inr (.inr ⟨d, by simp⟩))
      · exact .inl ⟨before ++ d :: front, .insert before front d, by simp⟩
  | delete before after d =>
      have hsplit : s ++ [c] = before ++ [d] ++ after := by simpa using hwhole
      rcases parts_of_concat hsplit with ⟨rfl, hlast⟩ | ⟨front, rfl, rfl⟩
      · exact .inr (.inl (by rw [List.append_nil, (List.append_inj' hlast rfl).1]))
      · refine .inl ⟨before ++ front, ?_, (List.append_assoc _ _ _).symm⟩
        rw [List.append_assoc]
        exact .delete before front d
  | replace before after d e =>
      have hsplit : s ++ [c] = before ++ [d] ++ after := by simpa using hwhole
      rcases parts_of_concat hsplit with ⟨rfl, hlast⟩ | ⟨front, rfl, rfl⟩
      · exact .inr (.inr (.inl ⟨e, by rw [(List.append_inj' hlast rfl).1]⟩))
      · refine .inl ⟨before ++ e :: front, ?_, by simp⟩
        rw [List.append_assoc]
        exact .replace before front d e

def replacementCost (c d : Char) : Nat :=
  if c = d then 0 else 1

theorem replacementCost_le_one (c d : Char) : replacementCost c d ≤ 1 := by
  unfold replacementCost
  split <;> decide

theorem replacementCost_self (c : Char) : replacementCost c c = 0 :=
  if_pos rfl

/-- Of the last characters one is edited on its own, or the one becomes the other. -/
inductive LastEdited (c d : Char) (s t : List Char) (n : Nat) : Prop
  | deleted {m : Nat} (hm : m < n) (h : Edits m s (t ++ [d]))
  | inserted {m : Nat} (hm : m < n) (h : Edits m (s ++ [c]) t)
  | kept {m : Nat} (hm : m + replacementCost c d ≤ n) (h : Edits m s t)

theorem LastEdited.mono (h : LastEdited c d s t m) (hle : m ≤ n) : LastEdited c d s t n := by
  cases h with
  | deleted hm h => exact .deleted (Nat.lt_of_lt_of_le hm hle) h
  | inserted hm h => exact .inserted (Nat.lt_of_lt_of_le hm hle) h
  | kept hm h => exact .kept (Nat.le_trans hm hle) h

theorem LastEdited.step (hfirst : Edit s u) (h : LastEdited c d u t n) :
    LastEdited c d s t (n + 1) := by
  cases h with
  | deleted hm h => exact .deleted (Nat.succ_lt_succ hm) (.step hfirst h)
  | inserted hm h => exact .inserted (Nat.succ_lt_succ hm) (.step (hfirst.concat c) h)
  | kept hm h => exact .kept (by omega) (.step hfirst h)

theorem LastEdited.replace {e : Char} (h : LastEdited e d s t n) (c : Char) :
    LastEdited c d s t (n + 1) := by
  cases h with
  | deleted hm h => exact .deleted (Nat.lt_succ_of_lt hm) h
  | inserted hm h => exact .inserted (Nat.succ_lt_succ hm) (.step (.replace s [] c e) h)
  | kept hm h =>
      have hcost := replacementCost_le_one c d
      exact .kept (by omega) h

theorem Edits.lastEdited (h : Edits n (s ++ [c]) (t ++ [d])) : LastEdited c d s t n := by
  induction n using Nat.strongRecOn generalizing s c with
  | ind n ih =>
      generalize hsource : s ++ [c] = source, htarget : t ++ [d] = target at h
      cases h with
      | refl =>
          obtain ⟨rfl, hlast⟩ := List.append_inj' (hsource.trans htarget.symm) rfl
          cases hlast
          exact .kept (by simp [replacementCost_self]) (.refl s)
      | @step _ _ _ k hfirst hrest =>
          subst hsource htarget
          have hk : k < k + 1 := Nat.lt_succ_self k
          rcases hfirst.of_concat with ⟨u, hu, rfl⟩ | rfl | ⟨e, rfl⟩ | ⟨e, rfl⟩
          · exact (ih k hk hrest).step hu
          · exact .deleted hk hrest
          · exact (ih k hk hrest).replace c
          · -- A character behind the last one goes again, or the last one does.
            cases ih k hk hrest with
            | deleted hm h => exact (ih _ (by omega) h).mono (by omega)
            | inserted hm h => exact .inserted (Nat.succ_lt_succ hm) (.step hfirst h)
            | kept hm h => exact .inserted (by omega) h

theorem Fewest.concat (hs : Fewest s (t ++ [d]) m) (ht : Fewest (s ++ [c]) t n)
    (hboth : Fewest s t k) :
    Fewest (s ++ [c]) (t ++ [d])
      (min (min (m + 1) (n + 1)) (k + replacementCost c d)) where
  reached := by
    have hdelete : Edits (m + 1) (s ++ [c]) (t ++ [d]) := .step (edit_delete_last s c) hs.reached
    have hinsert : Edits (n + 1) (s ++ [c]) (t ++ [d]) := ht.reached.then (edit_insert_last t d)
    have hreplace : Edits (k + replacementCost c d) (s ++ [c]) (t ++ [d]) := by
      by_cases hsame : c = d
      · subst hsame
        rw [replacementCost_self]
        exact hboth.reached.concat c
      · rw [replacementCost, if_neg hsame]
        exact (hboth.reached.concat c).then (.replace t [] c d)
    exact (hdelete.min hinsert).min hreplace
  least := by
    intro j h
    cases h.lastEdited with
    | deleted hm h =>
        have hleast := hs.least _ h
        omega
    | inserted hm h =>
        have hleast := ht.least _ h
        omega
    | kept hm h =>
        have hleast := hboth.least _ h
        omega

/-- The cells belong to the texts that go on from `done` by one more character of the target. -/
inductive Cells (source : List Char) : List Char → List Char → List Nat → Prop
  | nil (done : List Char) : Cells source done [] []
  | cons {done target : List Char} {d : Char} {n : Nat} {cells : List Nat}
      (hcell : Fewest source (done ++ [d]) n) (hrest : Cells source (done ++ [d]) target cells) :
      Cells source done (d :: target) (n :: cells)

inductive Row (source target : List Char) : List Nat → Prop
  | mk {n : Nat} {cells : List Nat} (hfirst : Fewest source [] n)
      (hcells : Cells source [] target cells) : Row source target (n :: cells)

theorem Cells.next (h : Cells source done target row) (c : Char)
    (hdiagonal : Fewest source done diagonal) (hleft : Fewest (source ++ [c]) done left) :
    Cells (source ++ [c]) done target (distanceCells c diagonal left target row) := by
  induction h generalizing diagonal left with
  | nil done => exact .nil done
  | cons hcell _ ih =>
      have hnext := hcell.concat hleft hdiagonal
      exact .cons hnext (ih hcell hnext)

theorem Row.next (h : Row source target row) (c : Char) :
    Row (source ++ [c]) target (distanceRow c target row) := by
  cases h with
  | @mk n cells hfirst hcells =>
      have hone : Fewest (source ++ [c]) [] (n + 1) := by
        have hlength := fewest_to_nil (source ++ [c])
        rwa [List.length_append, (fewest_to_nil source).unique hfirst] at hlength
      exact .mk hone (hcells.next c hfirst hone)

theorem Row.run (h : Row source target row) (rest : List Char) :
    Row (source ++ rest) target (distanceRows target row rest) := by
  induction rest generalizing source row with
  | nil => rwa [List.append_nil]
  | cons c rest ih =>
      rw [List.append_cons]
      exact ih (h.next c)

theorem cells_range' (done target : List Char) :
    Cells [] done target (List.range' (done.length + 1) target.length) := by
  induction target generalizing done with
  | nil => exact .nil done
  | cons d target ih =>
      have hcell := fewest_from_nil (done ++ [d])
      have hrest := ih (done ++ [d])
      rw [List.length_append] at hcell hrest
      exact .cons hcell hrest

theorem row_range (target : List Char) : Row [] target (List.range (target.length + 1)) := by
  rw [List.range_eq_range', List.range'_succ]
  exact .mk (fewest_from_nil []) (cells_range' [] target)

theorem Cells.last (h : Cells source done target cells) (hdone : Fewest source done n) :
    Fewest source (done ++ target) (cells.getLastD n) := by
  induction h generalizing n with
  | nil done => rwa [List.append_nil]
  | cons hcell _ ih =>
      rw [List.append_cons, List.getLastD_cons]
      exact ih hcell

theorem fewest_editDistance (s t : String) : Fewest s.toList t.toList (editDistance s t) := by
  have hrow := (row_range t.toList).run s.toList
  rw [List.nil_append] at hrow
  unfold editDistance
  generalize distanceRows t.toList (List.range (t.toList.length + 1)) s.toList = row at hrow ⊢
  cases hrow with
  | mk hfirst hcells =>
      rw [List.getLastD_cons]
      exact hcells.last hfirst

/-- The distance is the least number of edits between two texts.  It is the same both ways, zero
between equal texts only, and no larger than that of a detour over a third text. -/
theorem editDistance_metric :
    (∀ s t : String, Fewest s.toList t.toList (editDistance s t)) ∧
      (∀ s t : String, editDistance s t = editDistance t s) ∧
      (∀ s t : String, editDistance s t = 0 ↔ s = t) ∧
      ∀ s t u : String, editDistance s u ≤ editDistance s t + editDistance t u := by
  refine ⟨fewest_editDistance, fun s t => ?_, fun s t => ?_, fun s t u => ?_⟩
  · exact (fewest_editDistance s t).unique (fewest_editDistance t s).symm
  · rw [(fewest_editDistance s t).eq_zero_iff, String.toList_inj]
  · exact (fewest_editDistance s u).triangle (fewest_editDistance s t) (fewest_editDistance t u)

end FeatureTable.Text
