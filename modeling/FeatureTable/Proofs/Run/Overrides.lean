import FeatureTable.Run.Overrides
import Mathlib.Data.List.Basic

namespace FeatureTable.Overrides

/-!
A variable that names a setting replaces that setting and no other.  Any number of them, each for a
setting of its own, leave the settings as a whole intact.
-/

/-- The settings that a variable can name. -/
inductive Key where
  | dataSource
  | rawDirectory
  | processedDirectory
  | runsDirectory
deriving DecidableEq

namespace Key

def variableName : Key → String
  | dataSource => "FEATURIZE__DATA_SOURCE"
  | rawDirectory => "FEATURIZE__DATA_DIR__RAW"
  | processedDirectory => "FEATURIZE__DATA_DIR__PROCESSED"
  | runsDirectory => "FEATURIZE__OUTPUT__RUNS"

def get (settings : RunSettings) : Key → String
  | dataSource => settings.dataSource
  | rawDirectory => settings.rawDirectory
  | processedDirectory => settings.processedDirectory
  | runsDirectory => settings.runsDirectory

def set (settings : RunSettings) (value : String) : Key → RunSettings
  | dataSource => { settings with dataSource := value }
  | rawDirectory => { settings with rawDirectory := value }
  | processedDirectory => { settings with processedDirectory := value }
  | runsDirectory => { settings with runsDirectory := value }

def path : Key → List Step
  | dataSource => [.key "data_source"]
  | rawDirectory => [.key "data_dir", .key "raw"]
  | processedDirectory => [.key "data_dir", .key "processed"]
  | runsDirectory => [.key "output", .key "runs"]

end Key

def foldCase (name : String) : List Char :=
  name.toList.map Char.toLower

/-- Case does not matter. -/
def Denotes (key : Key) (name : String) : Prop :=
  foldCase name = foldCase key.variableName

instance (key : Key) (name : String) : Decidable (Denotes key name) :=
  inferInstanceAs (Decidable (_ = _))

/-- Nothing is meant to be overridden by the variable. -/
def Foreign (name : String) : Prop :=
  ¬ foldCase "FEATURIZE__" <+: foldCase name

instance (name : String) : Decidable (Foreign name) :=
  inferInstanceAs (Decidable (¬ _ <+: _))

variable {key other : Key} {name value : String} {settings merged : RunSettings}

theorem get_set_self : key.get (key.set settings value) = value := by
  cases key <;> rfl

theorem get_set_of_ne (h : other ≠ key) :
    other.get (key.set settings value) = other.get settings := by
  cases key <;> cases other <;> first | rfl | exact absurd rfl h

theorem eq_of_get {first second : RunSettings} (h : ∀ key : Key, key.get first = key.get second) :
    first = second := by
  cases first
  cases second
  simp only [RunSettings.mk.injEq]
  exact ⟨h .dataSource, h .rawDirectory, h .processedDirectory, h .runsDirectory⟩

theorem Denotes.unique (h : Denotes key name) (h' : Denotes other name) : key = other := by
  have hfold : foldCase key.variableName = foldCase other.variableName := h.symm.trans h'
  revert hfold
  cases key <;> cases other <;> decide

/-- The Kelvin sign is no letter of a name that counts, and the letter that it stands for is none
either. -/
theorem map_lower_iff {cs letters : List Char} (hletter : 'k' ∉ letters)
    (hsign : '\u212a' ∉ letters) : cs.map lower = letters ↔ cs.map Char.toLower = letters := by
  have hsame : '\u212a' ∉ cs → cs.map lower = cs.map Char.toLower := by
    refine fun hcs => List.map_congr_left fun c hc => if_neg ?_
    rintro rfl
    exact hcs hc
  constructor
  · rintro rfl
    exact (hsame fun hc => hletter (List.mem_map_of_mem hc)).symm
  · rintro rfl
    exact hsame fun hc => hsign (List.mem_map_of_mem hc)

theorem path?_of_denotes (h : Denotes key name) : path? name = some key.path := by
  have hlower := (map_lower_iff (by cases key <;> decide) (by cases key <;> decide)).mpr h
  unfold path?
  rw [hlower]
  cases key <;> decide +kernel

theorem path?_of_foreign (h : Foreign name) : path? name = none := by
  refine if_neg fun hprefix => h ?_
  rw [List.isPrefixOf_iff_prefix, List.prefix_iff_eq_take, ← List.map_take, eq_comm] at hprefix
  have hopening := (map_lower_iff (by decide) (by decide)).mp hprefix
  rw [List.map_take] at hopening
  exact List.prefix_iff_eq_take.mpr hopening.symm

theorem put_path :
    (ofSettings settings).put value key.path = ofSettings (key.set settings value) := by
  cases key <;> rfl

theorem toSettings_ofSettings (settings : RunSettings) :
    toSettings (ofSettings settings) = .ok settings := rfl

theorem putVariable_of_denotes (h : Denotes key name) :
    putVariable (ofSettings settings) (name, value) = ofSettings (key.set settings value) := by
  rw [putVariable, path?_of_denotes h]
  exact put_path

theorem putVariable_of_foreign (h : Foreign name) (s : Setting) :
    putVariable s (name, value) = s := by
  rw [putVariable, path?_of_foreign h]

/-- Every variable names a setting or nothing, and no two name the same setting. -/
structure Separate (environment : Environment) : Prop where
  named : ∀ entry ∈ environment, (∃ key, Denotes key entry.1) ∨ Foreign entry.1
  once : environment.Pairwise fun first second =>
    ∀ key, Denotes key first.1 → ¬ Denotes key second.1

/-- The settings that variables name have their values, and the others are as before. -/
structure Overridden (environment : Environment) (settings merged : RunSettings) : Prop where
  given : ∀ key name value, (name, value) ∈ environment → Denotes key name → key.get merged = value
  kept : ∀ key, (∀ entry ∈ environment, ¬ Denotes key entry.1) →
    key.get merged = key.get settings

theorem Denotes.not_foreign (h : Denotes key name) : ¬ Foreign name := by
  intro hforeign
  cases (path?_of_denotes h).symm.trans (path?_of_foreign hforeign)

theorem exists_overridden {environment : Environment} (h : Separate environment)
    (settings : RunSettings) :
    ∃ merged, environment.foldl putVariable (ofSettings settings) = ofSettings merged ∧
      Overridden environment settings merged := by
  induction environment generalizing settings with
  | nil => exact ⟨settings, rfl, nofun, fun _ _ => rfl⟩
  | cons entry environment ih =>
      obtain ⟨name, value⟩ := entry
      obtain ⟨hnamed, hrest⟩ := List.forall_mem_cons.mp h.named
      obtain ⟨honce, hpairs⟩ := List.pairwise_cons.mp h.once
      rw [List.foldl_cons]
      rcases hnamed with ⟨key, hkey⟩ | hforeign
      · rw [putVariable_of_denotes hkey]
        obtain ⟨merged, hmerged, hgiven, hkept⟩ := ih ⟨hrest, hpairs⟩ (key.set settings value)
        refine ⟨merged, hmerged, fun other name' value' hmem hother => ?_, fun other hnone => ?_⟩
        · rcases List.mem_cons.mp hmem with heq | hmem
          · -- no later variable names this setting again
            cases heq
            cases hkey.unique hother
            rw [hkept key fun later hlater => honce later hlater key hkey, get_set_self]
          · exact hgiven other name' value' hmem hother
        · obtain ⟨hfirst, hlater⟩ := List.forall_mem_cons.mp hnone
          rw [hkept other hlater, get_set_of_ne]
          rintro rfl
          exact hfirst hkey
      · rw [putVariable_of_foreign hforeign]
        obtain ⟨merged, hmerged, hgiven, hkept⟩ := ih ⟨hrest, hpairs⟩ settings
        refine ⟨merged, hmerged, fun other name' value' hmem hother => ?_, fun other hnone => ?_⟩
        · rcases List.mem_cons.mp hmem with heq | hmem
          · cases heq
            exact absurd hforeign hother.not_foreign
          · exact hgiven other name' value' hmem hother
        · exact hkept other (List.forall_mem_cons.mp hnone).2

/-- A setting that is named by a variable changes nothing when it is named again. -/
theorem Overridden.eq_of_again {environment : Environment} {again : RunSettings}
    (h : Overridden environment settings merged) (h' : Overridden environment merged again) :
    again = merged := by
  refine eq_of_get fun key => ?_
  by_cases hnone : ∀ entry ∈ environment, ¬ Denotes key entry.1
  · exact h'.kept key hnone
  · push Not at hnone
    obtain ⟨⟨name, value⟩, hmem, hkey⟩ := hnone
    rw [h.given key name value hmem hkey, h'.given key name value hmem hkey]

theorem override_eq_of_foldl {environment : Environment}
    (h : environment.foldl putVariable (ofSettings settings) = ofSettings merged) :
    settings.override environment = .ok merged := by
  rw [RunSettings.override, h, toSettings_ofSettings]

/-- Variables override exactly the settings that they name, verbatim, and a second time they change
nothing.  Without variables everything stays. -/
theorem override_overridden (settings : RunSettings) :
    settings.override [] = .ok settings ∧
      ∀ environment, Separate environment → ∃ merged,
        settings.override environment = .ok merged ∧ Overridden environment settings merged ∧
          merged.override environment = .ok merged := by
  refine ⟨override_eq_of_foldl rfl, fun environment h => ?_⟩
  obtain ⟨merged, hmerged, hoverridden⟩ := exists_overridden h settings
  obtain ⟨again, hagain, htwice⟩ := exists_overridden h merged
  cases hoverridden.eq_of_again htwice
  exact ⟨merged, override_eq_of_foldl hmerged, hoverridden, override_eq_of_foldl hagain⟩

/-- Texts that would read as paths or as separators elsewhere. -/
def oddVariables : Environment :=
  [("Featurize__Output__Runs", "a.b[0]__c"), ("PATH", "/bin"), ("FEATURIZE__DATA_SOURCE", "")]

theorem override_overridden_odd :
    Separate oddVariables ∧
      ∃ merged, RunSettings.override ⟨"raw.data", "in", "out", "runs"⟩ oddVariables = .ok merged ∧
        merged = ⟨"", "in", "out", "a.b[0]__c"⟩ ∧
        merged.override oddVariables = .ok merged := by
  have hruns : Denotes .runsDirectory "Featurize__Output__Runs" := by decide
  have hsource : Denotes .dataSource "FEATURIZE__DATA_SOURCE" := by decide
  have hpath : Foreign "PATH" := by decide
  have hseparate : Separate oddVariables := by
    constructor
    · simp only [oddVariables, List.forall_mem_cons, List.not_mem_nil, false_imp_iff, implies_true,
        and_true]
      exact ⟨.inl ⟨_, hruns⟩, .inr hpath, .inl ⟨_, hsource⟩⟩
    · simp only [oddVariables, List.pairwise_cons, List.forall_mem_cons, List.not_mem_nil,
        false_imp_iff, implies_true, and_true, List.Pairwise.nil]
      refine ⟨⟨fun key _ h => h.not_foreign hpath, fun key h h' => ?_⟩,
        fun key h => absurd hpath h.not_foreign⟩
      cases (h.unique hruns).symm.trans (h'.unique hsource)
  obtain ⟨merged, hmerged, hoverridden, hagain⟩ :=
    (override_overridden ⟨"raw.data", "in", "out", "runs"⟩).2 oddVariables hseparate
  refine ⟨hseparate, merged, hmerged, eq_of_get fun key => ?_, hagain⟩
  cases key with
  | dataSource => exact hoverridden.given .dataSource _ "" (by simp [oddVariables]) hsource
  | rawDirectory => exact hoverridden.kept .rawDirectory (by decide)
  | processedDirectory => exact hoverridden.kept .processedDirectory (by decide)
  | runsDirectory =>
      exact hoverridden.given .runsDirectory _ "a.b[0]__c" (by simp [oddVariables]) hruns

end FeatureTable.Overrides
