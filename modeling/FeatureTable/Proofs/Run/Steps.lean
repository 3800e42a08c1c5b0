import FeatureTable.Proofs.FileSystem
import FeatureTable.Run.Stages

namespace FeatureTable

def Workspace.told (w : Workspace) (events : List Event) : Workspace :=
  { w with events := w.events ++ events }

@[simp] theorem Workspace.told_nil (w : Workspace) : w.told [] = w := by
  rw [told, List.append_nil]

namespace Run

/-! How the steps of a run end on a workspace, and the workspace that they leave. -/

def on (x : Run (StateM Workspace) α) (w : Workspace) : Except RunError α × Workspace :=
  x.run w

variable {w w' : Workspace} {x : Run (StateM Workspace) α} {f : α → Run (StateM Workspace) β}

@[simp] theorem on_pure (a : α) (w : Workspace) :
    (pure a : Run (StateM Workspace) α).on w = (.ok a, w) := rfl

theorem on_lift (action : StateM Workspace α) (w : Workspace) :
    on (ExceptT.lift action) w = (.ok (action.run w).1, (action.run w).2) := rfl

theorem eq_ok_of_toOption {y : Except ε α} {a : α} (h : y.toOption = some a) : y = .ok a := by
  cases y with
  | error e => cases h
  | ok b =>
      cases h
      rfl

theorem on_eq {outcome : Except RunError α} (h : (x.on w).1 = outcome) :
    x.on w = (outcome, (x.on w).2) :=
  Prod.ext h rfl

theorem on_eq_ok {a : α} (h : (x.on w).1.toOption = some a) : x.on w = (.ok a, (x.on w).2) :=
  on_eq (eq_ok_of_toOption h)

theorem on_bind (x : Run (StateM Workspace) α) (f : α → Run (StateM Workspace) β) (w : Workspace) :
    (x >>= f).on w =
      match x.on w with
      | (.ok a, v) => (f a).on v
      | (.error e, v) => (.error e, v) := by
  have hbind : (x >>= f).on w = ExceptT.bindCont f (x.on w).1 (x.on w).2 := rfl
  rw [hbind]
  rcases x.on w with ⟨_ | a, v⟩ <;> rfl

theorem on_bind_of_ok {a : α} (h : x.on w = (.ok a, w')) : (x >>= f).on w = (f a).on w' := by
  rw [on_bind, h]

theorem on_bind_of_error {e : RunError} (h : x.on w = (.error e, w')) :
    (x >>= f).on w = (.error e, w') := by
  rw [on_bind, h]

theorem exists_of_on_bind {b : β} (h : (x >>= f).on w = (.ok b, w')) :
    ∃ a v, x.on w = (.ok a, v) ∧ (f a).on v = (.ok b, w') := by
  rw [on_bind] at h
  rcases hx : x.on w with ⟨e | a, v⟩
  · rw [hx] at h
    cases h
  · rw [hx] at h
    exact ⟨a, v, rfl, h⟩

/-- A sequence fails where its first step or what follows it does. -/
theorem error_of_on_bind {e : RunError} (h : (x >>= f).on w = (.error e, w')) :
    x.on w = (.error e, w') ∨ ∃ a v, x.on w = (.ok a, v) ∧ (f a).on v = (.error e, w') := by
  rw [on_bind] at h
  rcases hx : x.on w with ⟨other | a, v⟩
  · rw [hx] at h
    cases h
    exact .inl rfl
  · rw [hx] at h
    exact .inr ⟨a, v, rfl, h⟩

theorem on_info (message : String) (w : Workspace) :
    (info message : Run (StateM Workspace) Unit).on w = (.ok (), w.told [⟨.info, message⟩]) := rfl

theorem on_forM_report (events : List Event) (w : Workspace) :
    on (events.forM fun event => ExceptT.lift (Host.report event)) w = (.ok (), w.told events) := by
  induction events generalizing w with
  | nil => simp [Workspace.told]
  | cons event events ih =>
      show on (ExceptT.lift (Host.report event) >>= fun _ =>
        events.forM fun event => ExceptT.lift (Host.report event)) w = _
      rw [on_bind, on_lift]
      refine (ih _).trans ?_
      simp [Workspace.told, Host.report, StateT.run]

theorem on_compute (step : RunStep) (x : Traced Failure α) (w : Workspace) :
    (compute step x).on w =
      (x.outcome.mapError fun failure => ⟨step, .stage failure⟩, w.told x.events) := by
  unfold compute
  rw [on_bind, on_forM_report]
  cases x.outcome <;> rfl

section Compute

variable {step : RunStep} {computed : Traced Failure α} {a : α} {failure : Failure} {e : RunError}

theorem on_compute_of_ok (h : computed.outcome = .ok a) (step : RunStep) (w : Workspace) :
    (compute step computed).on w = (.ok a, w.told computed.events) := by
  rw [on_compute, h]
  rfl

theorem on_compute_of_error (h : computed.outcome = .error failure) (step : RunStep)
    (w : Workspace) :
    (compute step computed).on w = (.error ⟨step, .stage failure⟩, w.told computed.events) := by
  rw [on_compute, h]
  rfl

theorem ok_of_on_compute (h : (compute step computed).on w = (.ok a, w')) :
    computed.outcome = .ok a ∧ w' = w.told computed.events := by
  cases houtcome : computed.outcome with
  | error failure =>
      rw [on_compute_of_error houtcome] at h
      cases h
  | ok value =>
      rw [on_compute_of_ok houtcome] at h
      cases h
      exact ⟨rfl, rfl⟩

theorem error_of_on_compute (h : (compute step computed).on w = (.error e, w')) :
    ∃ failure, computed.outcome = .error failure ∧ e = ⟨step, .stage failure⟩ ∧
      w' = w.told computed.events := by
  cases houtcome : computed.outcome with
  | error failure =>
      rw [on_compute_of_error houtcome] at h
      cases h
      exact ⟨failure, rfl, rfl, rfl⟩
  | ok value =>
      rw [on_compute_of_ok houtcome] at h
      cases h

end Compute

theorem on_onFiles (step : RunStep) (action : StateM Workspace (Except FileError α))
    (w : Workspace) :
    (onFiles step action).on w =
      ((action.run w).1.mapError fun _ => ⟨step, .file⟩, (action.run w).2) := by
  unfold onFiles
  rw [on_bind, on_lift]
  cases (action.run w).1 <;> rfl

theorem eq_of_onFiles_error {step : RunStep} {action : StateM Workspace (Except FileError α)}
    {e : RunError} (h : (onFiles step action).on w = (.error e, w')) : e = ⟨step, .file⟩ := by
  rw [on_onFiles] at h
  rcases hresult : action.run w with ⟨_ | _, _⟩ <;> rw [hresult] at h
  · cases h
    rfl
  · cases h

/-- Data are copied or everything stays as it is. -/
theorem on_copyData (source target : String) (w : Workspace) :
    (copyData source target).on w =
      match w.files.copy source target with
      | .ok files =>
          (.ok (), Workspace.told { w with files } [⟨.info, s!"Raw data written to {target}"⟩])
      | .error _ => (.error ⟨.copyData source target, .file⟩, w) := by
  unfold copyData
  rw [on_bind, on_onFiles]
  simp only [Host.copyFile, Workspace.change, StateT.run]
  cases w.files.copy source target <;> rfl

/-- A table is saved exactly where its file can be written. -/
theorem on_saveTable (step : RunStep) (t : Table) (path : String) (w : Workspace) :
    (saveTable step t path).on w =
      match w.files.write path (Csv.writeTable t).toUTF8.toList with
      | .ok files => (.ok (), Workspace.told { w with files } [⟨.info, s!"Saved table to {path}"⟩])
      | .error _ => (.error ⟨step, .stage (.csv .file)⟩,
          w.told [⟨.error, s!"Failed to save table to {path}"⟩]) := by
  unfold saveTable
  rw [on_bind, on_lift]
  simp only [Host.writeFile, Workspace.change, StateT.run]
  cases w.files.write path (Csv.writeTable t).toUTF8.toList <;> rfl

/-- The rows are counted in what was read before the table is made. -/
theorem on_loadTable (path : String) (w : Workspace) :
    (loadTable path).on w =
      match w.files.read path with
      | .error _ => (.error ⟨.loadTable path, .stage (.csv .file)⟩, w)
      | .ok bytes =>
          match Csv.readContents bytes with
          | .error failure => (.error ⟨.loadTable path, .stage failure⟩, w)
          | .ok contents =>
              (contents.toTable.mapError fun failure => ⟨.loadTable path, .stage failure⟩,
                w.told [⟨.info, s!"Loaded {contents.rows.length} rows from {path}"⟩]) := by
  unfold loadTable
  rw [on_bind, on_lift]
  simp only [Host.readFile, StateT.run]
  cases w.files.read path with
  | error e => rfl
  | ok bytes =>
      simp only []
      rw [on_bind, on_compute, Traced.outcome_ofExcept]
      cases Csv.readContents bytes with
      | error failure => simp [Except.mapError, Traced.ofExcept]
      | ok contents =>
          simp only [Except.mapError]
          rw [on_bind, on_info]
          simp only []
          rw [on_compute, Traced.outcome_ofExcept]
          simp only [Traced.ofExcept, Workspace.told_nil]
          rfl

theorem on_loadTable_of_read {path : String} {bytes : List UInt8} {contents : Csv.Contents}
    {t : Table} (hread : w.files.read path = .ok bytes)
    (hcontents : Csv.readContents bytes = .ok contents) (htable : contents.toTable = .ok t) :
    (loadTable path).on w =
      (.ok t, w.told [⟨.info, s!"Loaded {contents.rows.length} rows from {path}"⟩]) := by
  rw [on_loadTable, hread]
  simp only [hcontents, htable]
  rfl

end Run

end FeatureTable
