import FeatureTable.Proofs.Csv.RoundTrip
import FeatureTable.Proofs.Run.Steps

namespace FeatureTable.Run

variable {w w' : Workspace} {t : Table} {path : String}

def saved (t : Table) : List UInt8 :=
  (Csv.writeTable t).toUTF8.toList

theorem on_saveTable_of_locateTarget {location : Location}
    (h : w.files.locateTarget path = .ok location) (step : RunStep) (t : Table) :
    (saveTable step t path).on w =
      (.ok (), Workspace.told { w with files := w.files.put location (.file (saved t)) }
        [⟨.info, s!"Saved table to {path}"⟩]) := by
  rw [on_saveTable, ← saved, FileSystem.write_of_locateTarget h]

theorem write_of_saveTable {step : RunStep} (h : (saveTable step t path).on w = (.ok (), w')) :
    w.files.write path (saved t) = .ok w'.files := by
  rw [on_saveTable, ← saved] at h
  cases hwrite : w.files.write path (saved t) with
  | error e =>
      rw [hwrite] at h
      cases h
  | ok files =>
      rw [hwrite] at h
      cases h
      rfl

theorem eq_of_saveTable_error {step : RunStep} {e : RunError}
    (h : (saveTable step t path).on w = (.error e, w')) : e = ⟨step, .stage (.csv .file)⟩ := by
  rw [on_saveTable, ← saved] at h
  cases hwrite : w.files.write path (saved t) with
  | error fault =>
      rw [hwrite] at h
      cases h
      rfl
  | ok files =>
      rw [hwrite] at h
      cases h

theorem on_loadTable_of_saved {t : ValidTable} {first : String}
    (hfirst : t.names.head? = some first) (hmark : first.toList.head? ≠ some '\uFEFF')
    (hread : w.files.read path = .ok (saved t)) :
    (loadTable path).on w =
      (.ok t.toTable, w.told [⟨.info, s!"Loaded {t.rows.length} rows from {path}"⟩]) := by
  have hcontents : Csv.readContents (saved t) = .ok ⟨t.names, t.rows⟩ :=
    Csv.readContents_writeTable hfirst hmark
  have hload := on_loadTable_of_read hread hcontents (Csv.toTable_of_valid t)
  simpa only using hload

/-- Saving a table where a file can be written and loading that file gives the table back. -/
theorem loadTable_saveTable (ht : t.Valid) {first : String} (hfirst : t.names.head? = some first)
    (hmark : first.toList.head? ≠ some '\uFEFF') (step : RunStep) {location : Location}
    (hplace : w.files.locateTarget path = .ok location) :
    ∃ after loaded, (saveTable step t path).on w = (.ok (), after) ∧
      after.files.read path = .ok (saved t) ∧
      (loadTable path).on after = (.ok t, loaded) ∧ loaded.files = after.files := by
  lift t to ValidTable using ht
  have hsave := on_saveTable_of_locateTarget hplace step t
  have hread := FileSystem.read_of_write (write_of_saveTable hsave)
  exact ⟨_, _, hsave, hread, on_loadTable_of_saved hfirst hmark hread, rfl⟩

theorem loadTable_saveTable_awkward :
    ∃ t : Table, t = ⟨[("a,\"b\"\n", [0 / 0, -0, 1 / 0]), ("", [5e-324, -0.1, 1e300])]⟩ ∧
      ∃ after loaded, (saveTable .saveDataset t "t.csv").on {} = (.ok (), after) ∧
        after.files.read "t.csv" = .ok (saved t) ∧
        (loadTable "t.csv").on after = (.ok t, loaded) ∧ loaded.files = after.files :=
  ⟨_, rfl, loadTable_saveTable ⟨by decide, by decide⟩ rfl (by decide) .saveDataset
    (show FileSystem.locateTarget _ _ = .ok ["t.csv"] by decide +kernel)⟩

end FeatureTable.Run
