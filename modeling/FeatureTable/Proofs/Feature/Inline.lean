import FeatureTable.Proofs.Expression.Substitute
import FeatureTable.Proofs.Feature.Run

namespace FeatureTable

open Expression

/-- What a name stands for over the input columns after some definitions, the last of them first. -/
def meaning : List Definition → String → Expression
  | [], name => .column name
  | d :: earlier, name =>
      if name = d.target then d.expression.substitute (meaning earlier) else meaning earlier name

/-- The expression of a definition over the input columns, if `before` are the definitions before
it. -/
def Definition.inlined (before : List Definition) (d : Definition) : Expression :=
  d.expression.substitute (meaning before.reverse)

theorem meaning_concat (done : List Definition) (d : Definition) (name : String) :
    meaning (done ++ [d]).reverse name =
      if name = d.target then d.inlined done else meaning done.reverse name := by
  rw [List.reverse_append]
  rfl

theorem meaning_append_of_ne {name : String} {later : List Definition}
    (hlater : ∀ d ∈ later, d.target ≠ name) (earlier : List Definition) :
    meaning (later ++ earlier) name = meaning earlier name := by
  induction later with
  | nil => rfl
  | cons d later ih =>
      rw [List.cons_append, meaning, if_neg (hlater d List.mem_cons_self).symm]
      exact ih fun other hother => hlater other (List.mem_cons_of_mem _ hother)

theorem meaning_of_last (before : List Definition) (d : Definition) {after : List Definition}
    (hlast : ∀ later ∈ after, later.target ≠ d.target) :
    meaning (before ++ d :: after).reverse d.target = d.inlined before := by
  rw [List.reverse_append, List.reverse_cons, List.append_assoc, meaning_append_of_ne]
  · exact if_pos rfl
  · exact fun later hlater => hlast later (List.mem_reverse.mp hlater)

/-- Every name has the column of what it stands for. -/
structure Inlines (t : Table) (done : List Definition) (u : Table) : Prop where
  targets : ∀ d ∈ done, d.target ∈ u.names
  column : ∀ name, columnOf u name = ((meaning done.reverse name).evaluate t).outcome

theorem inlines_refl (t : Table) : Inlines t [] t :=
  ⟨fun _ hd => absurd hd List.not_mem_nil, fun _ => rfl⟩

theorem Inlines.outcome_inlined {t u : Table} {done : List Definition} (h : Inlines t done u)
    (d : Definition) : ((d.inlined done).evaluate t).outcome = (d.expression.evaluate u).outcome :=
  outcome_evaluate_substitute h.column d.expression

theorem Inlines.concat {t u : Table} {done : List Definition} (h : Inlines t done u)
    {d : Definition} {values : Column} (hvalues : (d.expression.evaluate u).outcome = .ok values) :
    Inlines t (done ++ [d]) (u.put d.target values) where
  targets := by
    intro other hother
    rw [Table.mem_names_put]
    rcases List.mem_append.mp hother with hdone | hlast
    · exact Or.inr (h.targets other hdone)
    · exact Or.inl (congrArg Definition.target (List.mem_singleton.mp hlast))
  column := by
    intro name
    rw [meaning_concat, columnOf, Table.column?_put]
    by_cases hname : name = d.target
    · rw [if_pos hname, if_pos hname, h.outcome_inlined, hvalues]
    · rw [if_neg hname, if_neg hname]
      exact h.column name

theorem Inlines.column?_of_last {t u : Table} {before after : List Definition} {d : Definition}
    (h : Inlines t (before ++ d :: after) u)
    (hlast : ∀ later ∈ after, later.target ≠ d.target) :
    ∃ values, u.column? d.target = some values ∧
      ((d.inlined before).evaluate t).outcome = .ok values := by
  obtain ⟨values, hvalues⟩ := Table.exists_column?_of_mem (h.targets d (by simp))
  refine ⟨values, hvalues, ?_⟩
  rw [← meaning_of_last before d hlast, ← h.column, columnOf, hvalues]

/-- Definitions that build on each other give what each gives over the input columns alone, with the
same failure. -/
theorem applyDefinitions_inlined {t : Table} (ht : t.Valid) (definitions : List Definition) :
    (∀ u, (applyDefinitions t definitions).outcome = .ok u →
      ∀ before d after, definitions = before ++ d :: after →
        (∀ later ∈ after, later.target ≠ d.target) →
          ∃ values, u.column? d.target = some values ∧
            ((d.inlined before).evaluate t).outcome = .ok values) ∧
      ∀ stop, (applyDefinitions t definitions).outcome = .error stop →
        ∃ before d after fault, definitions = before ++ d :: after ∧
          (applyDefinitions t before).outcome = .ok stop.table ∧
          (d.apply stop.table).outcome = .error stop.failure ∧
          stop.failure = .evaluation fault ∧
          ((d.inlined before).evaluate t).outcome = .error fault := by
  lift t to ValidTable using ht
  have hrun := run_keeps (fun done u => Inlines t done u)
    (fun _ _ _ _ h hvalues => h.concat hvalues) [] (inlines_refl t) definitions
  constructor
  · rintro u hu before d after rfl hlast
    obtain ⟨_, hinlines⟩ := hrun.1 u hu
    exact hinlines.column?_of_last hlast
  · intro stop hstop
    obtain ⟨before, d, fault, hstops, hvalid, hinlines⟩ := hrun.2 stop hstop
    obtain ⟨after, hsplit⟩ := hstops.split
    refine ⟨before, d, after, fault, hsplit, hstops.reached, ?_, hstops.failure, ?_⟩
    · rw [hstops.failure]
      exact Definition.outcome_apply_of_error (t := ⟨stop.table, hvalid⟩) hstops.stops
    · exact (hinlines.outcome_inlined d).trans hstops.stops

theorem applyDefinitions_inlined_overwriting :
    (Table.mk [("a", [1, 2]), ("b", [3, 4])]).Valid ∧
      ∃ u values,
        (applyDefinitions (Table.mk [("a", [1, 2]), ("b", [3, 4])])
          [⟨"a", overTwo .multiply (column "a") (column "b") none⟩,
            ⟨"c", overTwo .add (column "a") (column "b") none⟩,
            ⟨"a", overTwo .subtract (column "c") (column "a") none⟩]).outcome = .ok u ∧
          u.column? "a" = some values ∧
          ((overTwo .subtract
            (overTwo .add (overTwo .multiply (column "a") (column "b") none) (column "b") none)
            (overTwo .multiply (column "a") (column "b") none) none).evaluate
              (Table.mk [("a", [1, 2]), ("b", [3, 4])])).outcome = .ok values := by
  have hvalid : (Table.mk [("a", [1, 2]), ("b", [3, 4])]).Valid := ⟨by decide, by decide⟩
  obtain ⟨hok, -⟩ := applyDefinitions_inlined hvalid
    [⟨"a", overTwo .multiply (column "a") (column "b") none⟩,
      ⟨"c", overTwo .add (column "a") (column "b") none⟩,
      ⟨"a", overTwo .subtract (column "c") (column "a") none⟩]
  obtain ⟨values, hvalues, hinlined⟩ := hok _ rfl
    [⟨"a", overTwo .multiply (column "a") (column "b") none⟩,
      ⟨"c", overTwo .add (column "a") (column "b") none⟩]
    ⟨"a", overTwo .subtract (column "c") (column "a") none⟩ [] rfl (by simp)
  exact ⟨hvalid, _, values, rfl, hvalues, hinlined⟩

end FeatureTable
