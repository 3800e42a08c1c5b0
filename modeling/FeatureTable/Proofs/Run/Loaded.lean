import FeatureTable.Proofs.Csv.Reading
import FeatureTable.Proofs.Run.Steps

namespace FeatureTable

namespace Csv

variable {header : List Field} {data : List (List Field)}

theorem FirstFault.eq_duplicateColumn {error : TableError}
    (h : FirstFault header data (.table error)) :
    ∃ name, error = .duplicateColumn name := by
  cases h with
  | record _ _ hfault => cases hfault
  | repeated => exact ⟨_, rfl⟩

theorem firstFault_duplicateColumn_iff {name : String} :
    FirstFault header data (.table (.duplicateColumn name)) ↔
      ∃ names, recordTexts? header = some names ∧
        (∀ record ∈ data, RecordFits names.length record) ∧ Table.FirstRepeat names name := by
  constructor
  · intro h
    cases h with
    | record _ _ hfault => cases hfault
    | repeated hheader hdata hname => exact ⟨_, hheader, hdata, hname⟩
  · rintro ⟨names, hheader, hdata, hname⟩
    exact .repeated hheader hdata hname

end Csv

namespace Run

open Csv

variable {w : Workspace} {path : String} {bytes : List UInt8}

theorem outcome_loadTable (hread : w.files.read path = .ok bytes) :
    ((loadTable path).on w).1 =
      (readContents bytes >>= Contents.toTable).mapError fun failure =>
        ⟨.loadTable path, .stage failure⟩ := by
  rw [on_loadTable, hread]
  cases hcontents : readContents bytes with
  | error failure => simp only [hcontents]; rfl
  | ok contents => simp only [hcontents]; rfl

theorem loadTable_eq_ok_iff (hread : w.files.read path = .ok bytes) {t : Table} :
    ((loadTable path).on w).1 = .ok t ↔ readContents bytes >>= Contents.toTable = .ok t := by
  rw [outcome_loadTable hread]
  cases readContents bytes >>= Contents.toTable <;> simp [Except.mapError]

theorem loadTable_eq_error_iff (hread : w.files.read path = .ok bytes) {e : RunError} :
    ((loadTable path).on w).1 = .error e ↔
      ∃ fault, FirstFault (headerRecord bytes) (dataRecords bytes) fault ∧
        e = ⟨.loadTable path, .stage fault⟩ := by
  simp only [← head?_contentsFaults, ← (reports_contents bytes).eq_error_iff]
  rw [outcome_loadTable hread]
  cases readContents bytes >>= Contents.toTable <;> simp [Except.mapError, eq_comm]

/-- A repeated name is reported only where every record is good, and no other failure of a table
comes up. -/
theorem loadTable_first_fault (path : String) {w : Workspace} {bytes : List UInt8}
    (hread : w.files.read path = .ok bytes) :
    ((∃ t, ((loadTable path).on w).1 = .ok t) ↔
        ∃ names, Fits (headerRecord bytes) (dataRecords bytes) names) ∧
      (∀ t, ((loadTable path).on w).1 = .ok t →
        Describes (headerRecord bytes) (dataRecords bytes) t) ∧
      (∀ e, ((loadTable path).on w).1 = .error e ↔
        ∃ fault, FirstFault (headerRecord bytes) (dataRecords bytes) fault ∧
          e = ⟨.loadTable path, .stage fault⟩) ∧
      (∀ name, ((loadTable path).on w).1 =
          .error ⟨.loadTable path, .stage (.table (.duplicateColumn name))⟩ ↔
        ∃ names, recordTexts? (headerRecord bytes) = some names ∧
          (∀ record ∈ dataRecords bytes, RecordFits names.length record) ∧
          Table.FirstRepeat names name) ∧
      (∀ step error, ((loadTable path).on w).1 = .error ⟨step, .stage (.table error)⟩ →
        ∃ name, error = .duplicateColumn name) ∧
      (bytes = [] → ((loadTable path).on w).1 = .ok .empty) := by
  refine ⟨?_, fun t ht => ?_, fun e => loadTable_eq_error_iff hread, fun name => ?_,
    fun step error h => ?_, ?_⟩
  · simp only [loadTable_eq_ok_iff hread, (reports_contents bytes).exists_ok_iff,
      contentsFaults_eq_nil_iff]
  · obtain ⟨names, rows, htable⟩ :=
      (reports_contents bytes).good ((loadTable_eq_ok_iff hread).mp ht)
    exact describes_of_isTable htable
  · rw [loadTable_eq_error_iff hread, ← firstFault_duplicateColumn_iff]
    simp
  · obtain ⟨fault, hfault, heq⟩ := (loadTable_eq_error_iff hread).mp h
    cases heq
    exact hfault.eq_duplicateColumn
  · rintro rfl
    rw [loadTable_eq_ok_iff hread]
    rfl

def badRows : List UInt8 :=
  " x,y, x\n1, 2 ,3\n\n4,?,a\n5\n".toUTF8.toList

/-- The bad cell of the second row hides the short row behind it and the repeated name. -/
theorem loadTable_first_fault_hidden :
    ((loadTable "t.csv").on { files := { entries := [(["t.csv"], .file badRows)] } }).1 =
      .error ⟨.loadTable "t.csv", .stage (.data (.cell 1 "y" "?"))⟩ := by
  have hread : FileSystem.read { entries := [(["t.csv"], .file badRows)] } "t.csv" =
      .ok badRows := by
    decide +kernel
  have hheader : headerRecord badRows = [" x", "y", " x"].map fieldBytes := by
    decide +kernel
  have hdata : dataRecords badRows =
      [["1", " 2 ", "3"], ["4", "?", "a"], ["5"]].map (List.map fieldBytes) := by
    decide +kernel
  refine ((loadTable_first_fault "t.csv" hread).2.2.1 _).mpr ⟨_, ?_, rfl⟩
  rw [hheader, hdata]
  have hfirst : RecordFits 3 (["1", " 2 ", "3"].map fieldBytes) := by
    refine ⟨rfl, _, recordTexts?_fieldBytes _, ?_⟩
    simp only [List.forall_mem_cons, List.not_mem_nil, false_implies, implies_true, and_true]
    exact ⟨⟨_, rfl⟩, ⟨_, rfl⟩, ⟨_, rfl⟩⟩
  have hcell : FirstAt (fun text => number? text = none) ["4", "?", "a"] 1 "?" := by
    refine ⟨rfl, rfl, fun earlier text hlow htext => ?_⟩
    obtain rfl := Nat.lt_one_iff.mp hlow
    cases htext
    exact Option.some_ne_none _
  have hrecord : FirstAt (fun record => ¬ RecordFits 3 record)
      ([["1", " 2 ", "3"], ["4", "?", "a"], ["5"]].map (List.map fieldBytes)) 1
      (["4", "?", "a"].map fieldBytes) := by
    refine ⟨rfl, fun hfits => ?_, fun earlier record hlow hrecord => ?_⟩
    · obtain ⟨texts, htexts, hnumbers⟩ := hfits.numbers
      cases htexts.symm.trans (recordTexts?_fieldBytes _)
      obtain ⟨x, hx⟩ := hnumbers "?" (by simp)
      cases hx.symm.trans hcell.holds
    · obtain rfl := Nat.lt_one_iff.mp hlow
      cases hrecord
      exact not_not_intro hfirst
  have hnames := recordTexts?_fieldBytes [" x", "y", " x"]
  exact .record hnames hrecord (.cell rfl (recordTexts?_fieldBytes _) rfl hcell)

end Run

end FeatureTable
