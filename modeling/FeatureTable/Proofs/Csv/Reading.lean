import FeatureTable.Csv.Table
import FeatureTable.Proofs.Csv.Records
import FeatureTable.Proofs.FirstAt
import FeatureTable.Proofs.Table.OfRows

namespace FeatureTable.Csv

/-! Any file is read as a table, or what is wrong with its first bad record is reported. -/

variable {bytes : List UInt8} {row width : Nat} {names texts : List String} {record : List Field}
  {data : List (List Field)} {fault : Failure}

/-- The number in a cell; blanks around it do not count. -/
def number? (text : String) : Option Float :=
  Decimal.readChars? (Text.trim text.toList)

def cellFaults (row : Nat) (cell : String × String) : List Failure :=
  if (number? cell.2).isSome then [] else [.data (.cell row cell.1 cell.2)]

theorem cellFaults_eq_nil_iff {cell : String × String} :
    cellFaults row cell = [] ↔ ¬ number? cell.2 = none := by
  rw [cellFaults]
  cases number? cell.2 <;> simp

theorem reports_readCell (row : Nat) (column text : String) :
    Reports (fun x => number? text = some x) (readCell row column text)
      (cellFaults row (column, text)) := by
  rw [readCell, cellFaults, ← number?]
  cases number? text with
  | none => exact .fails _ []
  | some x => exact .passes rfl

theorem reports_readCells (row : Nat) (hlength : texts.length = names.length) :
    Reports (List.Forall₂ (fun text x => number? text = some x) texts) (readCells row names texts)
      ((names.zip texts).flatMap (cellFaults row)) := by
  induction names generalizing texts with
  | nil =>
      obtain rfl := List.eq_nil_of_length_eq_zero hlength
      rw [readCells]
      · exact .passes .nil
      · simp
  | cons column names ih =>
      cases texts with
      | nil => cases hlength
      | cons text texts =>
          rw [readCells, List.zip_cons_cons, List.flatMap_cons,
            ← List.append_nil ((names.zip texts).flatMap _)]
          refine (reports_readCell row column text).bind fun x hx => ?_
          exact (ih (Nat.succ.inj hlength)).bind fun xs hxs => .passes (.cons hx hxs)

theorem recordTexts?_eq_some_iff : recordTexts? record = some texts ↔
    List.Forall₂ (fun field text => fieldText? field = some text) record texts := by
  rw [recordTexts?]
  induction record generalizing texts with
  | nil =>
      rw [List.forall₂_nil_left_iff]
      simp [eq_comm]
  | cons field record ih =>
      simp only [List.mapM_cons, List.forall₂_cons_left_iff, Option.bind_eq_bind,
        Option.bind_eq_some_iff, ih, Option.pure_def, Option.some.injEq]
      constructor
      · rintro ⟨text, htext, texts, htexts, rfl⟩
        exact ⟨text, texts, htext, htexts, rfl⟩
      · rintro ⟨text, texts, htext, htexts, rfl⟩
        exact ⟨text, htext, texts, htexts, rfl⟩

def recordFaults (names : List String) (row : Nat) (record : List Field) : List Failure :=
  if record.length ≠ names.length then [.csv (.unequalLengths names.length record.length)]
  else
    match recordTexts? record with
    | none => [.csv .notText]
    | some texts => (names.zip texts).flatMap (cellFaults row)

/-- The numbers of a row are those in the fields of its record. -/
def Denotes (record : List Field) (values : List Float) : Prop :=
  List.Forall₂ (fun field x => ∃ text, fieldText? field = some text ∧ number? text = some x) record
    values

theorem denotes_of_texts {values : List Float} (htexts : recordTexts? record = some texts)
    (hvalues : List.Forall₂ (fun text x => number? text = some x) texts values) :
    Denotes record values := by
  rw [recordTexts?_eq_some_iff] at htexts
  induction htexts generalizing values with
  | nil =>
      cases hvalues
      exact .nil
  | cons htext _ ih =>
      cases hvalues with
      | cons hx hrest => exact .cons ⟨_, htext, hx⟩ (ih hrest)

theorem reports_readRow (names : List String) (row : Nat) (record : List Field) :
    Reports (fun values => record.length = names.length ∧ Denotes record values)
      (readRow names row record) (recordFaults names row record) := by
  unfold readRow recordFaults
  by_cases hlength : record.length = names.length
  · rw [if_neg (not_not_intro hlength), if_neg (not_not_intro hlength)]
    cases htexts : recordTexts? record with
    | none => exact .fails _ []
    | some texts =>
        have htextsLength : texts.length = names.length := by
          rw [← hlength, (recordTexts?_eq_some_iff.mp htexts).length_eq]
        exact (reports_readCells row htextsLength).mono fun values hvalues =>
          ⟨hlength, denotes_of_texts htexts hvalues⟩
  · rw [if_pos hlength, if_pos hlength]
    exact .fails _ []

theorem reports_readRows (names : List String) (row : Nat) (data : List (List Field)) :
    Reports
      (List.Forall₂
        (fun record values => record.length = names.length ∧ Denotes record values) data)
      (readRows names row data)
      ((data.zipIdx row).flatMap fun entry => recordFaults names entry.2 entry.1) := by
  induction data generalizing row with
  | nil => exact .passes .nil
  | cons record data ih =>
      rw [readRows, List.zipIdx_cons, List.flatMap_cons,
        ← List.append_nil ((data.zipIdx (row + 1)).flatMap _)]
      refine (reports_readRow names row record).bind fun values hvalues => ?_
      exact (ih (row + 1)).bind fun rows hrows => .passes (.cons hvalues hrows)

/-- A file without records has a header without fields. -/
def headerRecord (bytes : List UInt8) : List Field :=
  (records bytes).headD []

def dataRecords (bytes : List UInt8) : List (List Field) :=
  (records bytes).tail

def contentsFaults (header : List Field) (data : List (List Field)) : List Failure :=
  match recordTexts? header with
  | none => [.csv .notText]
  | some names =>
      ((data.zipIdx 0).flatMap fun entry => recordFaults names entry.2 entry.1) ++
        (Table.repeatFaults names).map .ofTableError

structure IsTable (header : List Field) (data : List (List Field)) (names : List String)
    (rows : List (List Float)) (t : Table) : Prop where
  header : recordTexts? header = some names
  denotes : List.Forall₂ (fun record values => record.length = names.length ∧ Denotes record values)
    data rows
  ofRows : Table.ofRows names rows = .ok t

theorem toTable_readContents (hheader : recordTexts? (headerRecord bytes) = some names) :
    readContents bytes >>= Contents.toTable =
      readRows names 0 (dataRecords bytes) >>= fun rows =>
        (Table.ofRows names rows).mapError .ofTableError := by
  unfold readContents
  rw [headerRecord] at hheader
  simp only [hheader, pure_bind, bind_assoc]
  rfl

theorem readContents_of_not_text (hheader : recordTexts? (headerRecord bytes) = none) :
    readContents bytes = .error (.csv .notText) := by
  unfold readContents
  rw [headerRecord] at hheader
  simp only [hheader]
  rfl

theorem reports_contents (bytes : List UInt8) :
    Reports (fun t => ∃ names rows, IsTable (headerRecord bytes) (dataRecords bytes) names rows t)
      (readContents bytes >>= Contents.toTable)
      (contentsFaults (headerRecord bytes) (dataRecords bytes)) := by
  unfold contentsFaults
  cases hheader : recordTexts? (headerRecord bytes) with
  | none =>
      rw [readContents_of_not_text hheader]
      exact .fails _ []
  | some names =>
      rw [toTable_readContents hheader]
      refine (reports_readRows names 0 (dataRecords bytes)).bind fun rows hrows => ?_
      -- records are as wide as the header, so the widths of the rows are never at fault
      have hwidths : ∀ values ∈ rows, values.length = names.length :=
        forall_mem_right hrows fun _ _ h => h.2.length_eq.symm.trans h.1
      exact (Table.reports_ofRows_of_width hwidths).mapError.mono fun t ht =>
        ⟨names, rows, hheader, hrows, ht⟩

structure RecordFits (width : Nat) (record : List Field) : Prop where
  width : record.length = width
  numbers : ∃ texts, recordTexts? record = some texts ∧ ∀ text ∈ texts, ∃ x, number? text = some x

theorem recordFaults_eq_nil_iff :
    recordFaults names row record = [] ↔ RecordFits names.length record := by
  unfold recordFaults
  by_cases hlength : record.length = names.length
  · rw [if_neg (not_not_intro hlength)]
    cases htexts : recordTexts? record with
    | none =>
        refine ⟨fun h => (by cases h), fun h => ?_⟩
        obtain ⟨texts, hsome, -⟩ := h.numbers
        cases htexts.symm.trans hsome
    | some texts =>
        have htextsLength : texts.length ≤ names.length :=
          Nat.le_of_eq ((recordTexts?_eq_some_iff.mp htexts).length_eq.symm.trans hlength)
        have hcells : (∀ cell ∈ names.zip texts, cellFaults row cell = []) ↔
            ∀ text ∈ texts, ∃ x, number? text = some x := by
          conv_rhs => rw [← List.map_snd_zip htextsLength]
          simp only [cellFaults_eq_nil_iff, List.forall_mem_map, ← Option.ne_none_iff_exists',
            ne_eq]
        rw [List.flatMap_eq_nil_iff, hcells]
        refine ⟨fun h => ⟨hlength, texts, htexts, h⟩, fun h => ?_⟩
        obtain ⟨_, hsome, hnumbers⟩ := h.numbers
        cases htexts.symm.trans hsome
        exact hnumbers
  · rw [if_pos hlength]
    exact ⟨fun h => (by cases h), fun h => absurd h.width hlength⟩

/-- A record has the wrong number of fields, or one that is no text, or else its first cell that is
no number is at fault. -/
inductive RecordFault (names : List String) (row : Nat) (record : List Field) : Failure → Prop
  | width (h : record.length ≠ names.length) :
      RecordFault names row record (.csv (.unequalLengths names.length record.length))
  | notText (hwidth : record.length = names.length) (h : recordTexts? record = none) :
      RecordFault names row record (.csv .notText)
  | cell (hwidth : record.length = names.length) {texts : List String}
      (htexts : recordTexts? record = some texts) {place : Nat} {column text : String}
      (hcolumn : names[place]? = some column)
      (h : FirstAt (fun text => number? text = none) texts place text) :
      RecordFault names row record (.data (.cell row column text))

theorem head?_flatMap_cellFaults (hlength : names.length = texts.length) :
    ((names.zip texts).flatMap (cellFaults row)).head? = some fault ↔
      ∃ place column text, names[place]? = some column ∧
        FirstAt (fun text => number? text = none) texts place text ∧
          fault = .data (.cell row column text) := by
  have hnone : ∀ cell : String × String, ¬ number? cell.2 = none → cellFaults row cell = [] :=
    fun _ => cellFaults_eq_nil_iff.mpr
  have hone : ∀ cell : String × String, number? cell.2 = none →
      cellFaults row cell = [.data (.cell row cell.1 cell.2)] := fun cell hcell => by
    rw [cellFaults, hcell]
    rfl
  rw [head?_flatMap_single hnone hone]
  simp only [Prod.exists, firstAt_zip (P := fun text => number? text = none) hlength, and_assoc]

theorem head?_recordFaults :
    (recordFaults names row record).head? = some fault ↔ RecordFault names row record fault := by
  unfold recordFaults
  by_cases hlength : record.length = names.length
  · rw [if_neg (not_not_intro hlength)]
    cases htexts : recordTexts? record with
    | none =>
        constructor
        · rintro ⟨⟩
          exact .notText hlength htexts
        · intro h
          cases h with
          | width hwidth => exact absurd hlength hwidth
          | notText => rfl
          | cell _ hsome => cases htexts.symm.trans hsome
    | some texts =>
        have htextsLength : names.length = texts.length := by
          rw [← hlength, (recordTexts?_eq_some_iff.mp htexts).length_eq]
        rw [head?_flatMap_cellFaults htextsLength]
        constructor
        · rintro ⟨place, column, text, hcolumn, hfirst, rfl⟩
          exact .cell hlength htexts hcolumn hfirst
        · intro h
          cases h with
          | width hwidth => exact absurd hlength hwidth
          | notText _ hnone => cases htexts.symm.trans hnone
          | cell _ hsome hcolumn hfirst =>
              cases htexts.symm.trans hsome
              exact ⟨_, _, _, hcolumn, hfirst, rfl⟩
  · rw [if_pos hlength]
    constructor
    · rintro ⟨⟩
      exact .width hlength
    · intro h
      cases h with
      | width => rfl
      | notText hwidth => exact absurd hwidth hlength
      | cell hwidth => exact absurd hwidth hlength

structure Fits (header : List Field) (data : List (List Field)) (names : List String) : Prop where
  header : recordTexts? header = some names
  records : ∀ record ∈ data, RecordFits names.length record
  distinct : names.Nodup

/-- The header is no text, or the first bad record is at fault, or else the first repeated name. -/
inductive FirstFault (header : List Field) (data : List (List Field)) : Failure → Prop
  | header (h : recordTexts? header = none) : FirstFault header data (.csv .notText)
  | record {names : List String} (hheader : recordTexts? header = some names) {row : Nat}
      {record : List Field}
      (hrecord : FirstAt (fun record => ¬ RecordFits names.length record) data row record)
      {fault : Failure} (h : RecordFault names row record fault) : FirstFault header data fault
  | repeated {names : List String} (hheader : recordTexts? header = some names)
      (hdata : ∀ record ∈ data, RecordFits names.length record) {name : String}
      (h : Table.FirstRepeat names name) :
      FirstFault header data (.table (.duplicateColumn name))

theorem flatMap_recordFaults_eq_nil_iff :
    ((data.zipIdx row).flatMap fun entry => recordFaults names entry.2 entry.1) = [] ↔
      ∀ record ∈ data, RecordFits names.length record := by
  simp only [List.flatMap_eq_nil_iff, recordFaults_eq_nil_iff]
  conv_rhs => rw [← List.zipIdx_map_fst row data]
  exact List.forall_mem_map.symm

variable {header : List Field}

theorem contentsFaults_eq_nil_iff :
    contentsFaults header data = [] ↔ ∃ names, Fits header data names := by
  unfold contentsFaults
  cases hheader : recordTexts? header with
  | none =>
      refine ⟨fun h => (by cases h), ?_⟩
      rintro ⟨names, h⟩
      cases hheader.symm.trans h.header
  | some names =>
      rw [List.append_eq_nil_iff, flatMap_recordFaults_eq_nil_iff, List.map_eq_nil_iff,
        Table.repeatFaults_eq_nil_iff]
      constructor
      · rintro ⟨hrecords, hdistinct⟩
        exact ⟨names, hheader, hrecords, hdistinct⟩
      · rintro ⟨_, h⟩
        cases hheader.symm.trans h.header
        exact ⟨h.records, h.distinct⟩

theorem head?_contentsFaults :
    (contentsFaults header data).head? = some fault ↔ FirstFault header data fault := by
  unfold contentsFaults
  cases hheader : recordTexts? header with
  | none =>
      constructor
      · rintro ⟨⟩
        exact .header hheader
      · intro h
        cases h with
        | header => rfl
        | record hsome => cases hheader.symm.trans hsome
        | repeated hsome => cases hheader.symm.trans hsome
  | some names =>
      have hnil : ∀ row record, recordFaults names row record = [] ↔
          ¬ ¬ RecordFits names.length record := fun _ _ =>
        recordFaults_eq_nil_iff.trans not_not.symm
      rw [head?_append_eq_some_iff, head?_flatMap_zipIdx hnil, flatMap_recordFaults_eq_nil_iff,
        Table.head?_map_repeatFaults]
      simp only [Nat.zero_add, head?_recordFaults]
      constructor
      · rintro (⟨row, record, hrecord, hfault⟩ | ⟨hdata, name, hname, rfl⟩)
        · exact .record hheader hrecord hfault
        · exact .repeated hheader hdata hname
      · intro h
        cases h with
        | header hnone => cases hheader.symm.trans hnone
        | record hsome hrecord hfault =>
            cases hheader.symm.trans hsome
            exact .inl ⟨_, _, hrecord, hfault⟩
        | repeated hsome hdata hname =>
            cases hheader.symm.trans hsome
            exact .inr ⟨hdata, _, hname, rfl⟩

/-- Empty lines are no records, so every record has a field. -/
theorem ne_nil_of_mem_recordsFrom {place : Place} {fields : List Field} {field : Field}
    (h : record ∈ recordsFrom place fields field bytes) : record ≠ [] := by
  induction bytes generalizing place fields field with
  | nil =>
      cases place with
      | recordStart => cases h
      | _ =>
          rw [List.mem_singleton.mp h]
          simp
  | cons b bytes ih =>
      by_cases hplace : place = .quoted
      · subst hplace
        rw [recordsFrom_quoted_cons] at h
        split_ifs at h <;> exact ih h
      · obtain ⟨_, _, _, hstep⟩ := recordsFrom_cons hplace
        rw [hstep] at h
        split_ifs at h with _ _ _ _ _
        case neg =>
          rcases List.mem_cons.mp h with rfl | hlater
          · simp
          · exact ih hlater
        all_goals exact ih h

/-- Without names there are no rows. -/
theorem dataRecords_of_no_names (h : recordTexts? (headerRecord bytes) = some []) :
    dataRecords bytes = [] := by
  have hheader : headerRecord bytes = [] :=
    List.forall₂_nil_right_iff.mp (recordTexts?_eq_some_iff.mp h)
  rw [headerRecord] at hheader
  rw [dataRecords]
  cases hrecords : records bytes with
  | nil => rfl
  | cons header data =>
      rw [hrecords] at hheader
      have hmem : header ∈ records bytes := hrecords ▸ List.mem_cons_self
      exact absurd hheader (ne_nil_of_mem_recordsFrom hmem)

/-- The names are the fields of the header as they are, and each cell is the number in a field. -/
structure Describes (header : List Field) (data : List (List Field)) (t : Table) : Prop where
  valid : t.Valid
  names : recordTexts? header = some t.names
  height : t.height = data.length
  cell : ∀ {row place : Nat} {record : List Field} {field : Field},
    data[row]? = some record → record[place]? = some field →
      ∃ name text x, t.names[place]? = some name ∧ fieldText? field = some text ∧
        number? text = some x ∧ t.cell? name row = some x

theorem describes_of_isTable {rows : List (List Float)} {t : Table}
    (h : IsTable (headerRecord bytes) (dataRecords bytes) names rows t) :
    Describes (headerRecord bytes) (dataRecords bytes) t := by
  have hnames := Table.names_of_ofRows h.ofRows
  refine ⟨(ValidTable.ofRows h.ofRows).valid, hnames ▸ h.header, ?_, ?_⟩
  · by_cases hnone : names = []
    · -- a table without columns has no height, whatever rows it is made of
      subst hnone
      rw [dataRecords_of_no_names h.header, Table.eq_empty_of_names hnames]
      rfl
    · rw [Table.height_of_ofRows h.ofRows hnone, h.denotes.length_eq]
  · intro row place record field hrecord hfield
    obtain ⟨values, hvalues, hwidth, hdenotes⟩ := exists_right h.denotes hrecord
    obtain ⟨x, hx, text, htext, hnumber⟩ := exists_right hdenotes hfield
    have hplace : place < names.length := hwidth ▸ (List.getElem?_eq_some_iff.mp hfield).1
    have hname := List.getElem?_eq_getElem hplace
    refine ⟨names[place], text, x, by rw [hnames, hname], htext, hnumber, ?_⟩
    rw [Table.cell?_of_ofRows h.ofRows hname, hvalues, Option.bind_some, hx]

end FeatureTable.Csv
