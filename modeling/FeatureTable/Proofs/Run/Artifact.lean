import FeatureTable.Proofs.Run.Directories

namespace FeatureTable

namespace Run

/-- The files that a run writes, in this order. -/
inductive Artifact where
  | rawData
  | cleanData
  | features
deriving DecidableEq

namespace Artifact

def path (d : RunDirectory) : Artifact → String
  | rawData => d.rawData
  | cleanData => d.cleanData
  | features => d.features

def directory (d : RunDirectory) : Artifact → String
  | rawData => d.raw
  | cleanData => d.processed
  | features => d.processed

/-- The directory as the settings name it, below the root of the run. -/
def subdirectory (settings : RunSettings) : Artifact → String
  | rawData => settings.rawDirectory
  | cleanData => settings.processedDirectory
  | features => settings.processedDirectory

def name : Artifact → String
  | rawData => "clouds.data"
  | cleanData => "clouds.csv"
  | features => "features.csv"

/-- Where the file is in a run whose root is at a location. -/
def place (settings : RunSettings) (root : Location) (a : Artifact) : Location :=
  a.name :: a.subdirectory settings :: root

def all : List Artifact :=
  [rawData, cleanData, features]

variable {d : RunDirectory} {settings : RunSettings} {now : LocalTime} {root location : Location}
  {fs fs' : FileSystem} {a b : Artifact}

@[simp] theorem path_rawData (d : RunDirectory) : rawData.path d = d.rawData := rfl

@[simp] theorem path_cleanData (d : RunDirectory) : cleanData.path d = d.cleanData := rfl

@[simp] theorem path_features (d : RunDirectory) : features.path d = d.features := rfl

theorem mem_all (a : Artifact) : a ∈ all := by
  cases a <;> decide

theorem path_eq (d : RunDirectory) (a : Artifact) :
    a.path d = Path.join (a.directory d) a.name := by
  cases a <;> rfl

theorem isName_name (a : Artifact) : Path.IsName a.name := by
  cases a <;> decide

theorem name_inj : a.name = b.name → a = b := by
  cases a <;> cases b <;> decide

theorem place_inj (h : a.place settings root = b.place settings root) : a = b :=
  name_inj (List.cons.inj h).1

/-- Files of different names are never in one place. -/
theorem eq_of_locate (ha : fs.locate (a.path d) = .ok location)
    (hb : fs.locate (b.path d) = .ok location) : a = b := by
  rw [path_eq] at ha hb
  obtain ⟨_, rfl, -⟩ := FileSystem.exists_of_locate_join a.isName_name ha
  obtain ⟨_, hname, -⟩ := FileSystem.exists_of_locate_join b.isName_name hb
  exact name_inj (List.cons.inj hname).1

/-- The copy is elsewhere if one of the files made from it is in some place. -/
theorem rawData_elsewhere (a : Artifact) (ha : a ≠ .rawData)
    (h : fs.locate (a.path d) = .ok location) : fs.locate d.rawData ≠ .ok location :=
  fun hraw => ha (eq_of_locate h hraw)

/-- A file keeps its bytes while the run writes another. -/
theorem read_of_write (hne : a ≠ b) {bytes : List UInt8}
    (hlocated : ∃ location, fs.locate (a.path d) = .ok location)
    (hwrite : fs.write (b.path d) bytes = .ok fs') :
    fs'.read (a.path d) = fs.read (a.path d) := by
  obtain ⟨location, ha⟩ := hlocated
  obtain ⟨other, hb, -, -⟩ := FileSystem.write_eq_ok_iff.mp hwrite
  refine FileSystem.read_of_write_of_ne hwrite hb ha ?_
  intro heq
  exact hne (eq_of_locate (heq ▸ ha) hb)

end Artifact

end Run

end FeatureTable
