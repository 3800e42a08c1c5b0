import FeatureTable.Path
import FeatureTable.Run.Settings

namespace FeatureTable

structure LocalTime where
  year : Int
  month : Nat
  day : Nat
  hour : Nat
  minute : Nat
  second : Nat
deriving Repr, DecidableEq

namespace LocalTime

def padded (width n : Nat) : List Char :=
  let digits := Nat.toDigits 10 n
  List.replicate (width - digits.length) '0' ++ digits

/-- Years of more than four digits, and those before year zero, have a sign. -/
def yearDigits (year : Int) : List Char :=
  if 0 ≤ year ∧ year ≤ 9999 then padded 4 year.toNat
  else (if 0 ≤ year then '+' else '-') :: padded 4 year.natAbs

def runName (t : LocalTime) : String :=
  String.ofList
    ("run_".toList ++ yearDigits t.year ++ padded 2 t.month ++ padded 2 t.day ++ ['_'] ++
      padded 2 t.hour ++ padded 2 t.minute ++ padded 2 t.second)

end LocalTime

structure RunDirectory where
  root : String
  raw : String
  processed : String
deriving Repr, DecidableEq

namespace RunDirectory

/-- The directories for raw and processed data lie below the root unless their paths lead away. -/
def ofSettings (settings : RunSettings) (now : LocalTime) : RunDirectory :=
  let root := Path.join settings.runsDirectory now.runName
  { root
    raw := Path.join root settings.rawDirectory
    processed := Path.join root settings.processedDirectory }

def rawData (d : RunDirectory) : String :=
  Path.join d.raw "clouds.data"

def cleanData (d : RunDirectory) : String :=
  Path.join d.processed "clouds.csv"

def features (d : RunDirectory) : String :=
  Path.join d.processed "features.csv"

end RunDirectory

end FeatureTable
