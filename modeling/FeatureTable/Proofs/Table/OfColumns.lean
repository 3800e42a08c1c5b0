import FeatureTable.Proofs.Table.Build
import Mathlib.Data.List.Induction

namespace FeatureTable.Table

variable {t : Table} {name : String} {values : Column} {first second entry : String × Column}
  {entries rest : List (String × Column)} {fault : TableError}

def putAll (t : Table) (entries : List (String × Column)) : Table :=
  entries.foldl (fun u entry => u.put entry.1 entry.2) t

theorem putAll_concat (t : Table) (entries : List (String × Column)) (entry : String × Column) :
    t.putAll (entries ++ [entry]) = (t.putAll entries).put entry.1 entry.2 :=
  List.foldl_append

theorem names_putAll_empty (entries : List (String × Column)) :
    (empty.putAll entries).names = (entries.map Prod.fst).eraseDups := by
  induction entries using List.reverseRecOn with
  | nil => rfl
  | append_singleton entries entry ih =>
      rw [putAll_concat, names_put, ih, List.map_append, List.map_singleton, eraseDups_concat]
      simp only [List.mem_eraseDups]

/-- The last entry of a name gives the column. -/
theorem column?_putAll_empty (entries : List (String × Column)) (name : String) :
    (empty.putAll entries).column? name = entries.reverse.lookup name := by
  induction entries using List.reverseRecOn with
  | nil => rfl
  | append_singleton entries entry ih =>
      rw [putAll_concat, column?_put, ih, List.reverse_concat, lookup_entry]

theorem putColumn_of_not_mem (h : name ∉ entries.map Prod.fst) :
    putColumn name values entries = entries ++ [(name, values)] := by
  induction entries with
  | nil => rfl
  | cons entry entries ih =>
      rw [List.map_cons, List.mem_cons, not_or] at h
      rw [putColumn, if_neg (Ne.symm h.1), ih h.2, List.cons_append]

theorem putAll_empty_of_nodup (h : (entries.map Prod.fst).Nodup) :
    empty.putAll entries = ⟨entries⟩ := by
  induction entries using List.reverseRecOn with
  | nil => rfl
  | append_singleton entries entry ih =>
      rw [List.map_append, List.map_singleton, List.nodup_append] at h
      have hnew : entry.1 ∉ entries.map Prod.fst :=
        fun hmem => h.2.2 entry.1 hmem entry.1 List.mem_cons_self rfl
      rw [putAll_concat, ih h.1]
      exact congrArg Table.mk (putColumn_of_not_mem hnew)

def lengthFaults (height : Nat) (entry : String × Column) : List TableError :=
  if entry.2.length = height then [] else [.lengthMismatch entry.1 height entry.2.length]

theorem lengthFaults_eq_nil_iff {height : Nat} :
    lengthFaults height entry = [] ↔ entry.2.length = height := by
  rw [lengthFaults, ite_eq_left_iff]
  simp

theorem head?_flatMap_lengthFaults {height : Nat} :
    (entries.flatMap (lengthFaults height)).head? = some fault ↔
      ∃ place name values,
        FirstAt (fun entry => entry.2.length ≠ height) entries place (name, values) ∧
        fault = .lengthMismatch name height values.length := by
  have hnone : ∀ entry : String × Column, ¬ entry.2.length ≠ height →
      lengthFaults height entry = [] :=
    fun _ h => lengthFaults_eq_nil_iff.mpr (not_not.mp h)
  have hone : ∀ entry : String × Column, entry.2.length ≠ height →
      lengthFaults height entry = [.lengthMismatch entry.1 height entry.2.length] :=
    fun _ h => if_neg h
  rw [head?_flatMap_single hnone hone]
  simp only [Prod.exists]

theorem width_le_put (t : Table) (name : String) (values : Column) :
    t.width ≤ (t.put name values).width := by
  have hlength := (names_prefix_put t name values).length_le
  rwa [names, names, List.length_map, List.length_map] at hlength

theorem reports_insert (hothers : 0 < if t.contains entry.1 then t.width - 1 else t.width) :
    Reports (fun u => u = t.put entry.1 entry.2 ∧ u.height = t.height)
      (t.insert entry.1 entry.2) (lengthFaults t.height entry) := by
  rw [insert, lengthFaults]
  by_cases hlength : entry.2.length = t.height
  · rw [if_neg (fun h => h.2 hlength), if_pos hlength]
    exact .passes ⟨rfl, height_put hlength⟩
  · rw [if_pos ⟨hothers, hlength⟩, if_neg hlength]
    exact .fails _ []

theorem reports_insertAll (hwidth : 2 ≤ t.width) (entries : List (String × Column)) :
    Reports (fun u => u = t.putAll entries) (t.insertAll entries)
      (entries.flatMap (lengthFaults t.height)) := by
  have hrun : Reports (fun u => u = t.putAll entries ∧ 2 ≤ u.width ∧ u.height = t.height)
      (t.insertAll entries) (entries.flatMap (lengthFaults t.height)) := by
    refine @Reports.foldlM _ _ _
      (fun done u => u = t.putAll done ∧ 2 ≤ u.width ∧ u.height = t.height) _ _ entries t
      ⟨rfl, hwidth, rfl⟩ ?_
    rintro done entry rest - u ⟨rfl, hu, hheight⟩
    rw [← hheight]
    refine (reports_insert ?_).mono ?_
    · split <;> omega
    · rintro v ⟨rfl, hv⟩
      exact ⟨(putAll_concat t done entry).symm, Nat.le_trans hu (width_le_put _ _ _), hv⟩
  exact hrun.mono fun _ h => h.1

/-! An only column gives way to one of any length, so that of the entries that lead with one name
the last gives the height. -/

/-- The entries from the last of those that lead with one name on. -/
def fromLastLead : List (String × Column) → List (String × Column)
  | first :: second :: rest =>
      if second.1 = first.1 then fromLastLead (second :: rest) else first :: second :: rest
  | entries => entries

theorem fromLastLead_of_nodup (h : (entries.map Prod.fst).Nodup) :
    fromLastLead entries = entries := by
  match entries with
  | [] | [_] => rfl
  | first :: second :: rest =>
      rw [List.map_cons, List.map_cons, List.nodup_cons] at h
      exact if_neg fun hsame => h.1 (List.mem_cons.mpr (.inl hsame.symm))

theorem put_lead (h : second.1 = first.1) :
    (⟨[first]⟩ : Table).put second.1 second.2 = ⟨[second]⟩ := by
  rw [put, putColumn, if_pos h.symm]

theorem ofColumns_lead (h : second.1 = first.1) (rest : List (String × Column)) :
    ofColumns (first :: second :: rest) = ofColumns (second :: rest) := by
  have hinsert : (⟨[first]⟩ : Table).insert second.1 second.2 = .ok ⟨[second]⟩ := by
    rw [insert, contains, column?, lookup_entry, if_pos h]
    exact congrArg Except.ok (put_lead h)
  show ((⟨[first]⟩ : Table).insert second.1 second.2 >>= fun u => u.insertAll rest) = _
  rw [hinsert]
  rfl

theorem putAll_lead (h : second.1 = first.1) (rest : List (String × Column)) :
    empty.putAll (first :: second :: rest) = empty.putAll (second :: rest) :=
  congrArg (putAll · rest) (put_lead h)

theorem lengthFaults_first (first : String × Column) (rest : List (String × Column)) :
    lengthFaults (Table.mk (first :: rest)).height first = [] :=
  lengthFaults_eq_nil_iff.mpr rfl

theorem put_second (hne : second.1 ≠ first.1) :
    (⟨[first]⟩ : Table).put second.1 second.2 = ⟨[first, second]⟩ :=
  congrArg Table.mk (putColumn_of_not_mem fun hmem => hne (List.mem_singleton.mp hmem))

theorem reports_second (hne : second.1 ≠ first.1) :
    Reports (fun u => u = ⟨[first, second]⟩) ((⟨[first]⟩ : Table).insert second.1 second.2)
      (lengthFaults (Table.mk [first]).height second) := by
  have habsent : ¬ (Table.mk [first]).contains second.1 := fun hmem =>
    hne (List.mem_singleton.mp (contains_iff.mp hmem))
  have hothers : 0 < if (Table.mk [first]).contains second.1 then (Table.mk [first]).width - 1
      else (Table.mk [first]).width := by
    rw [if_neg habsent]
    exact Nat.one_pos
  exact (reports_insert hothers).mono fun u hu => hu.1.trans (put_second hne)

theorem reports_ofColumns (entries : List (String × Column)) :
    Reports (fun t => t = empty.putAll entries) (ofColumns entries)
      ((fromLastLead entries).flatMap
        (lengthFaults (Table.mk (fromLastLead entries)).height)) := by
  induction entries using fromLastLead.induct with
  | case1 first second rest hsame ih =>
      rw [fromLastLead, if_pos hsame, ofColumns_lead hsame, putAll_lead hsame]
      exact ih
  | case2 first second rest hne =>
      rw [fromLastLead, if_neg hne, List.flatMap_cons, lengthFaults_first, List.nil_append,
        List.flatMap_cons]
      refine (reports_second hne).bind ?_
      rintro u rfl
      show Reports (fun t => t = ((⟨[first]⟩ : Table).put second.1 second.2).putAll rest) _ _
      rw [put_second hne]
      exact reports_insertAll (t := ⟨[first, second]⟩) (Nat.le_refl 2) rest
  | case3 entries hother =>
      match entries with
      | [] => exact .passes rfl
      | [first] =>
          show Reports _ _ ([first].flatMap (lengthFaults (Table.mk [first]).height))
          rw [List.flatMap_singleton, lengthFaults_first]
          exact .passes rfl
      | first :: second :: rest => exact absurd rfl (hother first second rest)

end FeatureTable.Table
