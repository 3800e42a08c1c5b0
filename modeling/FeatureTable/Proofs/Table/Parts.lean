import Mathlib.Data.List.Nodup
import FeatureTable.Proofs.Table.OfColumns
import FeatureTable.Proofs.Table.OfRows

namespace FeatureTable.Table

variable {t : Table} {name : String} {values : Column} {entry : String × Column}
  {entries : List (String × Column)} {names : List String} {columns : List Column}
  {fault : TableError}

theorem reports_ofColumns_of_nodup (hnames : (entries.map Prod.fst).Nodup) :
    Reports (fun t => t = ⟨entries⟩) (ofColumns entries)
      (entries.flatMap (lengthFaults (Table.mk entries).height)) := by
  have hreports := reports_ofColumns entries
  rwa [fromLastLead_of_nodup hnames, putAll_empty_of_nodup hnames] at hreports

def countFaults (names : List String) (columns : List Column) : List TableError :=
  if names.length = columns.length then [] else [.columnCountMismatch names.length columns.length]

def partsFaults (names : List String) (columns : List Column) : List TableError :=
  countFaults names columns ++ (repeatFaults names ++
    (names.zip columns).flatMap (lengthFaults (Table.mk (names.zip columns)).height))

theorem reports_ofParts (names : List String) (columns : List Column) :
    Reports (fun t => t = ⟨names.zip columns⟩) (ofParts names columns)
      (partsFaults names columns) := by
  unfold ofParts partsFaults countFaults
  by_cases hcount : names.length = columns.length
  · rw [if_neg (not_not_intro hcount), if_pos hcount, List.nil_append]
    refine (reports_checkDistinct names).bind fun _ hdistinct => ?_
    refine reports_ofColumns_of_nodup ?_
    rwa [List.map_fst_zip (Nat.le_of_eq hcount)]
  · rw [if_pos hcount, if_neg hcount]
    exact .fails _ _

/-- Which fault is reported. -/
inductive PartsFault (names : List String) (columns : List Column) : TableError → Prop
  | count (h : names.length ≠ columns.length) :
      PartsFault names columns (.columnCountMismatch names.length columns.length)
  | repeated (hcount : names.length = columns.length) {name : String} (h : FirstRepeat names name) :
      PartsFault names columns (.duplicateColumn name)
  | length (hcount : names.length = columns.length) (hdistinct : names.Nodup) {first : Column}
      (hfirst : columns.head? = some first) {place : Nat} {name : String} {values : Column}
      (hname : names[place]? = some name)
      (h : FirstAt (fun values => values.length ≠ first.length) columns place values) :
      PartsFault names columns (.lengthMismatch name first.length values.length)

theorem countFaults_eq_nil_iff :
    countFaults names columns = [] ↔ names.length = columns.length := by
  rw [countFaults, ite_eq_left_iff]
  simp

theorem head?_countFaults : (countFaults names columns).head? = some fault ↔
    names.length ≠ columns.length ∧ fault = .columnCountMismatch names.length columns.length := by
  rw [countFaults]
  split <;> simp_all [eq_comm]

theorem height_zip (hcount : names.length = columns.length) {first : Column}
    (hfirst : columns.head? = some first) :
    (Table.mk (names.zip columns)).height = first.length := by
  obtain ⟨rest, rfl⟩ := List.head?_eq_some_iff.mp hfirst
  obtain ⟨name, names, rfl⟩ := List.exists_cons_of_length_eq_add_one hcount
  rfl

theorem head?_partsFaults : (partsFaults names columns).head? = some fault ↔
    PartsFault names columns fault := by
  rw [partsFaults]
  simp only [head?_append_eq_some_iff, countFaults_eq_nil_iff, repeatFaults_eq_nil_iff,
    head?_countFaults, head?_repeatFaults, head?_flatMap_lengthFaults]
  constructor
  · rintro (⟨hcount, rfl⟩ |
      ⟨hcount, ⟨name, hname, rfl⟩ | ⟨hdistinct, place, name, values, hfirst, rfl⟩⟩)
    · exact .count hcount
    · exact .repeated hcount hname
    · have hvalues := (List.getElem?_zip_eq_some.mp hfirst.here).2
      obtain ⟨first, hhead⟩ : ∃ first, columns.head? = some first :=
        ⟨_, List.head?_eq_some_head (List.ne_nil_of_mem (List.mem_of_getElem? hvalues))⟩
      rw [height_zip hcount hhead] at hfirst ⊢
      obtain ⟨hname, hfirst⟩ :=
        (firstAt_zip (P := fun values => values.length ≠ first.length) hcount).mp hfirst
      exact .length hcount hdistinct hhead hname hfirst
  · intro h
    cases h with
    | count hcount => exact .inl ⟨hcount, rfl⟩
    | repeated hcount hname => exact .inr ⟨hcount, .inl ⟨_, hname, rfl⟩⟩
    | @length hcount hdistinct first hhead place name values hname hfirst =>
        rw [← height_zip hcount hhead] at hfirst ⊢
        exact .inr ⟨hcount, .inr ⟨hdistinct, place, name, values,
          (firstAt_zip hcount).mpr ⟨hname, hfirst⟩, rfl⟩⟩

/-- Columns are aligned exactly if any two of them are of one length. -/
theorem forall_length_eq_height_iff :
    (∀ entry ∈ entries, entry.2.length = (Table.mk entries).height) ↔
      ∀ left ∈ entries.map Prod.snd, ∀ right ∈ entries.map Prod.snd,
        left.length = right.length := by
  constructor
  · intro h left hleft right hright
    obtain ⟨first, hfirst, rfl⟩ := List.mem_map.mp hleft
    obtain ⟨second, hsecond, rfl⟩ := List.mem_map.mp hright
    rw [h first hfirst, h second hsecond]
  · intro h entry hentry
    cases entries with
    | nil => cases hentry
    | cons first rest =>
        exact h entry.2 (List.mem_map_of_mem hentry) first.2 List.mem_cons_self

/-- What is stored is read back exactly if it is the names and the columns of a valid table. -/
theorem ofParts_accepts (names : List String) (columns : List Column) :
    ((∃ t, ofParts names columns = .ok t) ↔ names.length = columns.length ∧ names.Nodup ∧
        ∀ left ∈ columns, ∀ right ∈ columns, left.length = right.length) ∧
      (∀ t, ofParts names columns = .ok t ↔
        t.Valid ∧ t.names = names ∧ t.columns.map Prod.snd = columns) ∧
      ∀ fault, ofParts names columns = .error fault ↔ PartsFault names columns fault := by
  have hreports := reports_ofParts names columns
  have hok : (∃ t, ofParts names columns = .ok t) ↔ names.length = columns.length ∧ names.Nodup ∧
      ∀ left ∈ columns, ∀ right ∈ columns, left.length = right.length := by
    rw [hreports.exists_ok_iff, partsFaults, List.append_eq_nil_iff, List.append_eq_nil_iff,
      countFaults_eq_nil_iff, repeatFaults_eq_nil_iff, List.flatMap_eq_nil_iff]
    simp only [lengthFaults_eq_nil_iff]
    refine and_congr_right fun hcount => and_congr_right fun _ => ?_
    rw [forall_length_eq_height_iff, List.map_snd_zip (Nat.le_of_eq hcount.symm)]
  refine ⟨hok, fun t => ⟨fun h => ?_, ?_⟩, fun fault => ?_⟩
  · obtain ⟨hcount, -, -⟩ := hok.mp ⟨t, h⟩
    refine ⟨(ValidTable.ofParts h).valid, ?_⟩
    obtain rfl := hreports.good h
    exact ⟨List.map_fst_zip (Nat.le_of_eq hcount), List.map_snd_zip (Nat.le_of_eq hcount.symm)⟩
  · rintro ⟨hvalid, rfl, rfl⟩
    obtain ⟨u, hu⟩ := hok.mpr ⟨by rw [Table.names, List.length_map, List.length_map],
      hvalid.distinct, forall_length_eq_height_iff.mp hvalid.aligned⟩
    have hcolumns : t.columns = t.names.zip (t.columns.map Prod.snd) := List.zip_of_prod rfl rfl
    rw [hu, hreports.good hu, ← hcolumns]
  · rw [hreports.eq_error_iff, head?_partsFaults]

/-! A repeated name is refused where the names are given on their own.  Where each column comes
with its name, the last column of a name stays, and nothing but a length is refused. -/

theorem ofParts_of_nodup (h : (entries.map Prod.fst).Nodup) :
    ofParts (entries.map Prod.fst) (entries.map Prod.snd) = ofColumns entries := by
  have hcount : (entries.map Prod.fst).length = (entries.map Prod.snd).length := by
    rw [List.length_map, List.length_map]
  have hentries : entries = (entries.map Prod.fst).zip (entries.map Prod.snd) :=
    List.zip_of_prod rfl rfl
  rw [ofParts, if_neg (not_not_intro hcount), checkDistinct_eq_ok_iff.mpr h]
  exact congrArg ofColumns hentries.symm

theorem ofParts_of_firstRepeat (h : FirstRepeat (entries.map Prod.fst) name) :
    ofParts (entries.map Prod.fst) (entries.map Prod.snd) = .error (.duplicateColumn name) := by
  rw [(reports_ofParts _ _).eq_error_iff, head?_partsFaults]
  exact .repeated (by rw [List.length_map, List.length_map]) h

theorem ofColumns_eq_error_iff :
    ofColumns entries = .error fault ↔ ∃ place name values,
      FirstAt (fun entry => entry.2.length ≠ (Table.mk (fromLastLead entries)).height)
        (fromLastLead entries) place (name, values) ∧
      fault = .lengthMismatch name (Table.mk (fromLastLead entries)).height values.length := by
  rw [(reports_ofColumns entries).eq_error_iff, head?_flatMap_lengthFaults]

/-- Columns with their names end like names and columns that were stored apart exactly if the names
are distinct.  Of a repeated name the last column stays, and the columns from the last of those that
lead with one name on have to be of one length. -/
theorem ofColumns_eq_ofParts_iff (entries : List (String × Column)) :
    (ofColumns entries = ofParts (entries.map Prod.fst) (entries.map Prod.snd) ↔
        (entries.map Prod.fst).Nodup) ∧
      ((∃ t, ofColumns entries = .ok t) ↔
        ∀ left ∈ (fromLastLead entries).map Prod.snd,
          ∀ right ∈ (fromLastLead entries).map Prod.snd, left.length = right.length) ∧
      (∀ t, ofColumns entries = .ok t → t.Valid ∧
        t.names = (entries.map Prod.fst).eraseDups ∧
        ∀ name, t.column? name = entries.reverse.lookup name) ∧
      (∀ fault, ofColumns entries = .error fault ↔ ∃ place name values,
        FirstAt (fun entry => entry.2.length ≠ (Table.mk (fromLastLead entries)).height)
          (fromLastLead entries) place (name, values) ∧
        fault = .lengthMismatch name (Table.mk (fromLastLead entries)).height values.length) ∧
      ∀ name, FirstRepeat (entries.map Prod.fst) name →
        ofParts (entries.map Prod.fst) (entries.map Prod.snd) = .error (.duplicateColumn name) ∧
        ∀ rows, ofRows (entries.map Prod.fst) rows = .error (.duplicateColumn name) := by
  refine ⟨⟨fun heq => ?_, fun h => (ofParts_of_nodup h).symm⟩, ?_, fun t ht => ?_,
    fun fault => ofColumns_eq_error_iff,
    fun name hname => ⟨ofParts_of_firstRepeat hname, ofRows_of_firstRepeat hname⟩⟩
  · by_contra hrepeated
    obtain ⟨name, hname⟩ := exists_firstRepeat hrepeated
    rw [ofParts_of_firstRepeat hname] at heq
    obtain ⟨_, _, _, -, hfault⟩ := ofColumns_eq_error_iff.mp heq
    cases hfault
  · rw [(reports_ofColumns entries).exists_ok_iff, List.flatMap_eq_nil_iff,
      ← forall_length_eq_height_iff]
    simp only [lengthFaults_eq_nil_iff]
  · obtain rfl := (reports_ofColumns entries).good ht
    exact ⟨(ValidTable.ofColumns ht).valid, names_putAll_empty entries,
      column?_putAll_empty entries⟩

theorem ofColumns_of_repeated_name :
    ofParts ["a", "a"] [[1], [2]] = .error (.duplicateColumn "a") ∧
      ofRows ["a", "a"] [[1, 2]] = .error (.duplicateColumn "a") ∧
      ofColumns [("a", [1]), ("a", [2])] = .ok ⟨[("a", [2])]⟩ :=
  ⟨rfl, rfl, rfl⟩

end FeatureTable.Table
