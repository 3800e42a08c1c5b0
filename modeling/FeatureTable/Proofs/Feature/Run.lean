import FeatureTable.Feature.Generate
import FeatureTable.Proofs.Expression.Rowwise

namespace FeatureTable

open Expression

/-- The table once a definition has succeeded. -/
def ValidTable.define (t : ValidTable) (d : Definition) {values : Column}
    (h : (d.expression.evaluate t).outcome = .ok values) : ValidTable :=
  t.put d.target (tabulates_of_outcome h).length

section Step

variable {t : ValidTable} {d : Definition} {values : Column} {fault : EvalError}

theorem ValidTable.height_define (h : (d.expression.evaluate t).outcome = .ok values) :
    (t.define d h).height = t.height :=
  Table.height_put (tabulates_of_outcome h).length

theorem Definition.outcome_apply_of_ok (h : (d.expression.evaluate t).outcome = .ok values) :
    (d.apply t).outcome = .ok (t.define d h).toTable := by
  unfold Definition.apply
  rw [Traced.outcome_bind, Traced.outcome_mapError, h]
  show (Traced.mapError Failure.ofTableError
    (Traced.ofExcept (t.insert d.target values))).outcome = _
  rw [Traced.outcome_mapError, Traced.outcome_ofExcept,
    Table.insert_of_length (tabulates_of_outcome h).length]
  rfl

theorem Definition.outcome_apply_of_error
    (h : (d.expression.evaluate t).outcome = .error fault) :
    (d.apply t).outcome = .error (.evaluation fault) := by
  unfold Definition.apply
  rw [Traced.outcome_bind, Traced.outcome_mapError, h]
  rfl

theorem outcome_applyDefinitions_of_ok (h : (d.expression.evaluate t).outcome = .ok values)
    (definitions : List Definition) :
    (applyDefinitions t (d :: definitions)).outcome =
      (applyDefinitions (t.define d h) definitions).outcome := by
  rw [applyDefinitions, Traced.outcome_bind, Traced.outcome_recover,
    Definition.outcome_apply_of_ok h]
  simp only [Traced.outcome_bind, Traced.outcome_record]
  rfl

theorem outcome_applyDefinitions_of_error (h : (d.expression.evaluate t).outcome = .error fault)
    (definitions : List Definition) :
    (applyDefinitions t (d :: definitions)).outcome = .error ⟨t, .evaluation fault⟩ := by
  rw [applyDefinitions, Traced.outcome_bind, Traced.outcome_recover,
    Definition.outcome_apply_of_error h]
  rfl

end Step

/-- How a run over definitions stops: a first part succeeds and the next definition fails. -/
structure StopsAt (t : Table) (definitions before : List Definition) (d : Definition)
    (stop : Interrupted) (fault : EvalError) : Prop where
  split : ∃ after, definitions = before ++ d :: after
  reached : (applyDefinitions t before).outcome = .ok stop.table
  stops : (d.expression.evaluate stop.table).outcome = .error fault
  failure : stop.failure = .evaluation fault

theorem StopsAt.cons {t : ValidTable} {d : Definition} {values : Column}
    (hvalues : (d.expression.evaluate t).outcome = .ok values)
    {definitions before : List Definition} {last : Definition} {stop : Interrupted}
    {fault : EvalError} (h : StopsAt (t.define d hvalues) definitions before last stop fault) :
    StopsAt t (d :: definitions) (d :: before) last stop fault where
  split := by
    obtain ⟨after, hsplit⟩ := h.split
    exact ⟨after, congrArg (List.cons d) hsplit⟩
  reached := by
    rw [outcome_applyDefinitions_of_ok hvalues]
    exact h.reached
  stops := h.stops
  failure := h.failure

/-- A run over a valid table ends with a valid table, or stops at one.  What every definition that
succeeds keeps holds of this table.  `Keeps` may look at the definitions done so far. -/
theorem run_keeps (Keeps : List Definition → ValidTable → Prop)
    (hstep : ∀ done u d values, Keeps done u →
      ∀ h : (d.expression.evaluate u.toTable).outcome = .ok values,
        Keeps (done ++ [d]) (u.define d h))
    (done : List Definition) {t : ValidTable} (ht : Keeps done t) (definitions : List Definition) :
    (∀ u, (applyDefinitions t definitions).outcome = .ok u →
      ∃ hvalid : u.Valid, Keeps (done ++ definitions) ⟨u, hvalid⟩) ∧
      ∀ stop, (applyDefinitions t definitions).outcome = .error stop →
        ∃ before d fault, StopsAt t definitions before d stop fault ∧
          ∃ hvalid : stop.table.Valid, Keeps (done ++ before) ⟨stop.table, hvalid⟩ := by
  -- The table and the definitions done change at each step, so both are general.
  induction definitions generalizing done t with
  | nil =>
      refine ⟨fun u hu => ?_, fun stop hstop => (by cases hstop)⟩
      cases hu
      rw [List.append_nil]
      exact ⟨t.valid, ht⟩
  | cons d definitions ih =>
      cases hvalues : (d.expression.evaluate t).outcome with
      | error fault =>
          rw [outcome_applyDefinitions_of_error hvalues]
          refine ⟨fun u hu => (by cases hu), fun stop hstop => ?_⟩
          cases hstop
          refine ⟨[], d, fault, ⟨⟨definitions, rfl⟩, rfl, hvalues, rfl⟩, t.valid, ?_⟩
          rwa [List.append_nil]
      | ok values =>
          rw [outcome_applyDefinitions_of_ok hvalues]
          obtain ⟨hok, herror⟩ := ih (done ++ [d]) (hstep done t d values ht hvalues)
          constructor
          · intro u hu
            have hkeeps := hok u hu
            rwa [List.append_assoc] at hkeeps
          · intro stop hstop
            obtain ⟨before, last, fault, hstops, hkeeps⟩ := herror stop hstop
            refine ⟨d :: before, last, fault, hstops.cons hvalues, ?_⟩
            rwa [List.append_assoc] at hkeeps

namespace ValidTable

variable {t : ValidTable} {u : Table} {definitions : List Definition}

def applied (t : ValidTable) (h : (applyDefinitions t definitions).outcome = .ok u) :
    ValidTable where
  toTable := u
  valid := by
    have hrun := run_keeps (t := t) (fun _ _ => True) (fun _ _ _ _ _ _ => trivial) [] trivial
    exact ((hrun definitions).1 u h).1

theorem exists_stopsAt {stop : Interrupted}
    (h : (applyDefinitions t definitions).outcome = .error stop) :
    ∃ before d fault, StopsAt t definitions before d stop fault := by
  have hrun := run_keeps (t := t) (fun _ _ => True) (fun _ _ _ _ _ _ => trivial) [] trivial
  obtain ⟨before, d, fault, hstops, -⟩ := (hrun definitions).2 stop h
  exact ⟨before, d, fault, hstops⟩

theorem height_applied (h : (applyDefinitions t definitions).outcome = .ok u) :
    u.height = t.height := by
  have hrun := run_keeps (fun _ u => u.height = t.height)
    (fun _ _ _ _ hu hvalues => (height_define hvalues).trans hu) [] rfl definitions
  obtain ⟨_, hheight⟩ := hrun.1 u h
  exact hheight

theorem names_prefix_applied (h : (applyDefinitions t definitions).outcome = .ok u) :
    t.names <+: u.names := by
  have hrun := run_keeps (fun _ u => t.names <+: u.names)
    (fun _ u d values hu _ => hu.trans (u.names_prefix_put d.target values)) []
    List.prefix_rfl definitions
  obtain ⟨_, hnames⟩ := hrun.1 u h
  exact hnames

/-- A column that no definition has for its target stays as it is. -/
theorem column?_applied (h : (applyDefinitions t definitions).outcome = .ok u) {name : String}
    (hname : ∀ d ∈ definitions, d.target ≠ name) : u.column? name = t.column? name := by
  have hrun := run_keeps
    (fun done u => (∀ d ∈ done, d.target ≠ name) → u.column? name = t.column? name)
    (fun done u d values hu _ hdone => by
      refine (Table.column?_put u d.target name values).trans ?_
      rw [if_neg (hdone d (by simp)).symm]
      exact hu fun e he => hdone e (List.mem_append_left _ he))
    [] (fun _ => rfl) definitions
  obtain ⟨_, hcolumn⟩ := hrun.1 u h
  exact hcolumn hname

end ValidTable

theorem outcome_generateFrom (t : Table) (columns : List String) (definitions : List Definition) :
    (generateFrom t columns definitions).outcome =
      match t.select columns with
      | .error error => .error (.ofTableError error)
      | .ok selected =>
          (applyDefinitions selected definitions).outcome.mapError Interrupted.failure := by
  unfold generateFrom
  rw [Traced.outcome_bind, Traced.outcome_mapError, Traced.outcome_ofExcept]
  cases t.select columns with
  | error error => rfl
  | ok selected => exact Traced.outcome_mapError _ _

end FeatureTable
