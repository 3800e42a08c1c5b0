import FeatureTable.Proofs.Run.Directories
import FeatureTable.Proofs.Text.Order

namespace FeatureTable

/-!
The directory of a run is named by the time of the run.  Runs of different times have different
directories, and the names are in the order of the times as long as years have four digits.
-/

namespace LocalTime

variable {t u : LocalTime} {n m width : Nat}

/-- Apart from the year, no part of a time has more than two digits. -/
structure TwoDigits (t : LocalTime) : Prop where
  month : t.month < 100
  day : t.day < 100
  hour : t.hour < 100
  minute : t.minute < 100
  second : t.second < 100

/-- From the longest part to the shortest, so that an earlier time has the smaller list. -/
def parts (t : LocalTime) : List Int :=
  [t.year, t.month, t.day, t.hour, t.minute, t.second]

theorem ofDigitChars_padded (width n : Nat) : Nat.ofDigitChars 10 (padded width n) 0 = n := by
  rw [padded, Nat.ofDigitChars_append, Nat.ofDigitChars_replicate_zero, Nat.mul_zero,
    Nat.ofDigitChars_ten_toDigits]

theorem padded_inj : padded width n = padded width m ↔ n = m := by
  refine ⟨fun h => ?_, congrArg _⟩
  rw [← ofDigitChars_padded width n, h, ofDigitChars_padded]

theorem length_padded (hwidth : 0 < width) (h : n < Nat.pow 10 width) :
    (padded width n).length = width := by
  have hdigits : (Nat.toDigits 10 n).length ≤ width :=
    (Nat.length_toDigits_le_iff (by decide) hwidth).mpr h
  rw [padded, List.length_append, List.length_replicate, Nat.sub_add_cancel hdigits]

theorem padded_lt_iff (h : (padded width n).length = (padded width m).length) :
    padded width n < padded width m ↔ n < m := by
  have hlt := Text.ofDigitChars_lt_iff h (fun _ => isDigit_of_mem_padded)
    (fun _ => isDigit_of_mem_padded) 0 0
  rw [ofDigitChars_padded, ofDigitChars_padded] at hlt
  simpa using hlt.symm

def readYear : List Char → Int
  | '+' :: digits => Nat.ofDigitChars 10 digits 0
  | '-' :: digits => -Nat.ofDigitChars 10 digits 0
  | digits => Nat.ofDigitChars 10 digits 0

theorem readYear_yearDigits (year : Int) : readYear (yearDigits year) = year := by
  unfold yearDigits
  split_ifs with hfour hpositive
  · have hread : readYear (padded 4 year.toNat) = Nat.ofDigitChars 10 (padded 4 year.toNat) 0 := by
      unfold readYear
      split
      · rename_i digits hsign
        cases isDigit_of_mem_padded (hsign ▸ List.mem_cons_self)
      · rename_i digits hsign
        cases isDigit_of_mem_padded (hsign ▸ List.mem_cons_self)
      · rfl
    rw [hread, ofDigitChars_padded, Int.toNat_of_nonneg hfour.1]
  · rw [readYear, ofDigitChars_padded, Int.natAbs_of_nonneg hpositive]
  · rw [readYear, ofDigitChars_padded]
    omega

theorem yearDigits_inj {year other : Int} : yearDigits year = yearDigits other ↔ year = other := by
  refine ⟨fun h => ?_, congrArg _⟩
  rw [← readYear_yearDigits year, h, readYear_yearDigits]

theorem runName_inj (ht : t.TwoDigits) (hu : u.TwoDigits) : t.runName = u.runName ↔ t = u := by
  refine ⟨fun h => ?_, congrArg _⟩
  have hblock : ∀ {n m : Nat} {before before' : List Char}, n < 100 → m < 100 →
      before ++ padded 2 n = before' ++ padded 2 m → before = before' ∧ n = m := by
    intro n m before before' hn hm happend
    obtain ⟨hbefore, hpadded⟩ := List.append_inj' happend
      (by rw [length_padded Nat.two_pos hn, length_padded Nat.two_pos hm])
    exact ⟨hbefore, padded_inj.mp hpadded⟩
  have hname := congrArg String.toList h
  rw [toList_runName, toList_runName] at hname
  obtain ⟨hname, hsecond⟩ := hblock ht.second hu.second hname
  obtain ⟨hname, hminute⟩ := hblock ht.minute hu.minute hname
  obtain ⟨hname, hhour⟩ := hblock ht.hour hu.hour hname
  obtain ⟨hname, hday⟩ := hblock ht.day hu.day (List.append_cancel_right hname)
  obtain ⟨hname, hmonth⟩ := hblock ht.month hu.month hname
  have hyear := yearDigits_inj.mp (List.append_cancel_left hname)
  cases t
  cases u
  simp only [mk.injEq]
  exact ⟨hyear, hmonth, hday, hhour, hminute, hsecond⟩

theorem ascii_of_isDigit {cs : List Char} (h : ∀ c ∈ cs, c.isDigit) : ∀ c ∈ cs, c.toNat < 128 :=
  fun c hc => Nat.lt_of_le_of_lt (Text.toNat_of_isDigit (h c hc)).2 (by decide)

theorem ascii_padded (width n : Nat) : ∀ c ∈ padded width n, c.toNat < 128 :=
  ascii_of_isDigit fun _ => isDigit_of_mem_padded

theorem ascii_runName (t : LocalTime) : ∀ c ∈ t.runName.toList, c.toNat < 128 := by
  have hyear : ∀ c ∈ yearDigits t.year, c.toNat < 128 := by
    unfold yearDigits
    split_ifs
    · exact ascii_padded _ _
    · exact List.forall_mem_cons.mpr ⟨by decide, ascii_padded _ _⟩
    · exact List.forall_mem_cons.mpr ⟨by decide, ascii_padded _ _⟩
  have hrun : ∀ c ∈ "run_".toList, c.toNat < 128 := by simp
  have hline : ∀ c ∈ ['_'], c.toNat < 128 := List.forall_mem_singleton.mpr (by decide)
  have hpadded := ascii_padded 2
  rw [toList_runName]
  simp only [List.mem_append, or_imp, forall_and]
  exact ⟨⟨⟨⟨⟨⟨⟨hrun, hyear⟩, hpadded _⟩, hpadded _⟩, hline⟩, hpadded _⟩, hpadded _⟩, hpadded _⟩

theorem bytes_runName (t : LocalTime) : t.runName.toUTF8.toList = Text.utf8 t.runName.toList := by
  rw [← Text.toList_toUTF8_ofList, String.ofList_toList]

theorem runName_lt_iff (ht : t.TwoDigits) (hu : u.TwoDigits) (hyear : 0 ≤ t.year ∧ t.year ≤ 9999)
    (hother : 0 ≤ u.year ∧ u.year ≤ 9999) :
    t.runName.toUTF8.toList < u.runName.toUTF8.toList ↔ t.parts < u.parts := by
  have hblock : ∀ {n m : Nat} {after after' : List Char}, n < 100 → m < 100 →
      (padded 2 n ++ after < padded 2 m ++ after' ↔ n < m ∨ n = m ∧ after < after') := by
    intro n m after after' hn hm
    have hlength : (padded 2 n).length = (padded 2 m).length := by
      rw [length_padded Nat.two_pos hn, length_padded Nat.two_pos hm]
    rw [Text.append_lt_append_iff hlength, padded_lt_iff hlength, padded_inj]
  have hyears : (padded 4 t.year.toNat).length = (padded 4 u.year.toNat).length := by
    have hfirst : t.year.toNat < 10000 := by omega
    have hsecond : u.year.toNat < 10000 := by omega
    rw [length_padded (by decide) hfirst, length_padded (by decide) hsecond]
  have hlast := @hblock _ _ [] [] ht.second hu.second
  rw [List.append_nil, List.append_nil] at hlast
  rw [bytes_runName, bytes_runName, Text.utf8_lt_iff t.ascii_runName u.ascii_runName,
    toList_runName, toList_runName, yearDigits, yearDigits, if_pos hyear, if_pos hother]
  simp only [List.append_assoc]
  rw [Text.append_lt_append_iff rfl, Text.append_lt_append_iff hyears, padded_lt_iff hyears,
    padded_inj, hblock ht.month hu.month, hblock ht.day hu.day, Text.append_lt_append_iff rfl,
    hblock ht.hour hu.hour, hblock ht.minute hu.minute, hlast]
  have hless : t.year.toNat < u.year.toNat ↔ t.year < u.year := by omega
  have hsame : t.year.toNat = u.year.toNat ↔ t.year = u.year := by omega
  simp only [parts, List.cons_lt_cons_iff, hless, hsame, Int.ofNat_lt, Int.ofNat_inj,
    List.lt_irrefl, and_false, or_false, false_or, true_and]

end LocalTime

theorem Path.join_inj (base : String) {name other : String} (hname : '/' ∉ name.toList)
    (hother : '/' ∉ other.toList) : join base name = join base other ↔ name = other := by
  refine ⟨fun h => ?_, congrArg _⟩
  unfold join at h
  rw [isAbsolute_name hname, isAbsolute_name hother] at h
  split_ifs at h
  · exact h
  · exact (String.append_right_inj _).mp h
  · exact (String.append_right_inj _).mp h

namespace RunDirectory

/-- Wherever the paths lead, the directory has the name of its run. -/
theorem name_of_locate_root {settings : RunSettings} {now : LocalTime} {fs : FileSystem}
    {location : Location} (h : fs.locate (ofSettings settings now).root = .ok location) :
    location.head? = some now.runName := by
  rw [root_eq] at h
  obtain ⟨directory, rfl, -⟩ := FileSystem.exists_of_locate_join now.isName_runName h
  rfl

open LocalTime in
/-- Runs of different times never share a directory, whatever the year.  The names of the
directories are in the order of the times for years from 0 to 9999. -/
theorem root_separates_and_orders (settings : RunSettings) {t u : LocalTime} (ht : t.TwoDigits)
    (hu : u.TwoDigits) :
    ((ofSettings settings t).root = (ofSettings settings u).root ↔ t = u) ∧
    (∀ fs location other, FileSystem.locate fs (ofSettings settings t).root = .ok location →
      fs.locate (ofSettings settings u).root = .ok other → t ≠ u → location ≠ other) ∧
    (0 ≤ t.year ∧ t.year ≤ 9999 → 0 ≤ u.year ∧ u.year ≤ 9999 →
      (t.runName.toUTF8.toList < u.runName.toUTF8.toList ↔ t.parts < u.parts)) := by
  refine ⟨?_, fun fs location other hlocation hother hne => ?_, runName_lt_iff ht hu⟩
  · rw [root_eq, root_eq, Path.join_inj _ t.isName_runName.noSlash u.isName_runName.noSlash,
      runName_inj ht hu]
  · rintro rfl
    have hname := (name_of_locate_root hlocation).symm.trans (name_of_locate_root hother)
    exact hne ((runName_inj ht hu).mp (Option.some.inj hname))

/-- The last second of a year with three digits. -/
def lastSecond : LocalTime := ⟨999, 12, 31, 23, 59, 59⟩

def nextSecond : LocalTime := ⟨1000, 1, 1, 0, 0, 0⟩

def newYear : RunSettings where
  dataSource := "raw.data"
  runsDirectory := "runs"

theorem root_separates_and_orders_new_year :
    (ofSettings newYear lastSecond).root ≠ (ofSettings newYear nextSecond).root ∧
      lastSecond.runName.toUTF8.toList < nextSecond.runName.toUTF8.toList := by
  have hlast : lastSecond.TwoDigits := ⟨by decide, by decide, by decide, by decide, by decide⟩
  have hnext : nextSecond.TwoDigits := ⟨by decide, by decide, by decide, by decide, by decide⟩
  obtain ⟨hroot, -, horder⟩ := root_separates_and_orders newYear hlast hnext
  exact ⟨fun h => absurd (hroot.mp h) (by decide), (horder (by decide) (by decide)).mpr (by decide)⟩

end RunDirectory

end FeatureTable
