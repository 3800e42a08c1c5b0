import FeatureTable.Proofs.Dataset.Law
import FeatureTable.Proofs.FirstAt

namespace FeatureTable

/-! Of everything that is wrong with a text one fault is reported.  The first cloud is checked
before the names of the columns, and these before the second cloud. -/

namespace Cloud

variable {c : Cloud} {range : LineRange} {width line : Nat} {tokens : List String}
  {lines : List (List String)} {columns : List String} {fault : Failure}

/-- A line is too long, or else its first token that is no number is at fault. -/
inductive LineFault (width line : Nat) (tokens : List String) : Failure → Prop
  | long (h : width < tokens.length) :
      LineFault width line tokens (.data (.longLine line tokens.length width))
  | value (hwidth : tokens.length ≤ width) {place : Nat} {token : String}
      (h : FirstAt (fun token => number? token = none) tokens place token) :
      LineFault width line tokens (.data (.lineValue line token))

theorem head?_flatMap_tokenFaults :
    (tokens.flatMap (tokenFaults line)).head? = some fault ↔
      ∃ place token, FirstAt (fun token => number? token = none) tokens place token ∧
        fault = .data (.lineValue line token) := by
  refine head?_flatMap_single (fun token hnumber => ?_) (fun token hnone => ?_) tokens
  · rw [tokenFaults_eq_nil_iff]
    exact Option.ne_none_iff_exists'.mp hnumber
  · rw [tokenFaults, hnone]
    rfl

theorem head?_lineFaults :
    (lineFaults width line tokens).head? = some fault ↔ LineFault width line tokens fault := by
  rw [lineFaults, head?_append_eq_some_iff, head?_flatMap_tokenFaults]
  by_cases hwidth : width < tokens.length
  · rw [if_pos hwidth]
    constructor
    · rintro (⟨⟨⟩⟩ | ⟨⟨⟩, -⟩)
      exact .long hwidth
    · intro h
      cases h with
      | long => exact .inl rfl
      | value hshort => exact absurd hwidth (Nat.not_lt.mpr hshort)
  · rw [if_neg hwidth]
    constructor
    · rintro (⟨⟨⟩⟩ | ⟨-, place, token, h, rfl⟩)
      exact .value (Nat.not_lt.mp hwidth) h
    · intro h
      cases h with
      | long hlong => exact absurd hlong hwidth
      | value _ h => exact .inr ⟨rfl, _, _, h, rfl⟩

/-- The first line of a range that does not fit the columns, under its number in the text. -/
structure FirstUnfit (range : LineRange) (width : Nat) (lines : List (List String)) (line : Nat)
    (tokens : List String) : Prop where
  holds : range.Holds line
  here : lines[line]? = some tokens
  unfit : ¬ LineFits width tokens
  before : ∀ earlier other, range.left ≤ earlier → earlier < line → lines[earlier]? = some other →
    LineFits width other

theorem firstUnfit_iff : FirstUnfit range width lines line tokens ↔
    ∃ place, line = range.left + place ∧
      FirstAt (fun tokens => ¬ LineFits width tokens) (select range lines) place tokens := by
  constructor
  · rintro ⟨⟨hleft, hright⟩, hhere, hunfit, hbefore⟩
    refine ⟨line - range.left, by omega, ?_, hunfit, fun earlier other hlow hother => ?_⟩
    · rwa [getElem?_select (by omega), Nat.add_sub_cancel' hleft]
    · rw [getElem?_select (by omega)] at hother
      exact not_not_intro (hbefore _ other (by omega) (by omega) hother)
  · rintro ⟨place, rfl, h⟩
    have hplace : place < range.right - range.left := by
      have hlength := (List.getElem?_eq_some_iff.mp h.here).1
      rw [select, List.length_take] at hlength
      omega
    refine ⟨⟨by omega, by omega⟩, (getElem?_select hplace).symm.trans h.here, h.holds, ?_⟩
    intro earlier other hleft hlow hother
    refine not_not.mp (h.before (earlier - range.left) other (by omega) ?_)
    rwa [getElem?_select (by omega), Nat.add_sub_cancel' hleft]

theorem head?_rowFaults :
    (rowFaults width range.left (select range lines)).head? = some fault ↔
      ∃ line tokens, FirstUnfit range width lines line tokens ∧
        LineFault width line tokens fault := by
  have hnil : ∀ line tokens, lineFaults width line tokens = [] ↔ ¬ ¬ LineFits width tokens :=
    fun _ _ => lineFaults_eq_nil_iff.trans not_not.symm
  rw [rowFaults, head?_flatMap_zipIdx hnil]
  simp only [head?_lineFaults, firstUnfit_iff]
  constructor
  · rintro ⟨place, tokens, hfirst, hfault⟩
    exact ⟨_, tokens, ⟨place, rfl, hfirst⟩, hfault⟩
  · rintro ⟨_, tokens, ⟨place, rfl, hfirst⟩, hfault⟩
    exact ⟨place, tokens, hfirst, hfault⟩

/-- The lines of the cloud are there and fit the columns. -/
structure Fits (c : Cloud) (width : Nat) (lines : List (List String)) : Prop where
  within : c.range.Within lines.length
  lines : ∀ line tokens, c.range.Holds line → lines[line]? = some tokens → LineFits width tokens

/-- Either not all lines are there, or the first that does not fit is at fault. -/
inductive FirstFault (c : Cloud) (width : Nat) (lines : List (List String)) : Failure → Prop
  | range (h : ¬ c.range.Within lines.length) :
      FirstFault c width lines
        (.data (.cloudRange c.name c.range.left c.range.right lines.length))
  | line (hwithin : c.range.Within lines.length) {line : Nat} {tokens : List String}
      (hline : FirstUnfit c.range width lines line tokens) {fault : Failure}
      (h : LineFault width line tokens fault) : FirstFault c width lines fault

theorem head?_rangeFaults :
    (c.rangeFaults lines.length).head? = some fault ↔
      ¬ c.range.Within lines.length ∧
        fault = .data (.cloudRange c.name c.range.left c.range.right lines.length) := by
  by_cases hwithin : c.range.Within lines.length
  · rw [rangeFaults_eq_nil_iff.mpr hwithin]
    exact ⟨fun h => (by cases h), fun h => absurd hwithin h.1⟩
  · rw [rangeFaults, if_pos (not_not.mp (mt LineRange.within_iff.mpr hwithin)), List.head?_cons,
      Option.some.injEq, eq_comm]
    exact (and_iff_right hwithin).symm

/-- The names are looked at only where the lines fit. -/
theorem head?_faults :
    (c.faults columns lines).head? = some fault ↔
      c.FirstFault columns.length lines fault ∨
        c.Fits columns.length lines ∧ ∃ name,
          Table.FirstRepeat (columns ++ [classColumn]) name ∧
            fault = .table (.duplicateColumn name) := by
  rw [faults]
  simp only [head?_append_eq_some_iff, head?_rangeFaults, head?_rowFaults, rangeFaults_eq_nil_iff,
    rowFaults_eq_nil_iff, forall_mem_select, Table.head?_map_repeatFaults]
  constructor
  · rintro (⟨hrange, rfl⟩ | ⟨hwithin, ⟨line, tokens, hline, hfault⟩ | ⟨hlines, hname⟩⟩)
    · exact .inl (.range hrange)
    · exact .inl (.line hwithin hline hfault)
    · exact .inr ⟨⟨hwithin, hlines⟩, hname⟩
  · rintro (hfault | ⟨⟨hwithin, hlines⟩, hname⟩)
    · cases hfault with
      | range hrange => exact .inl ⟨hrange, rfl⟩
      | line hwithin hline hfault => exact .inr ⟨hwithin, .inl ⟨_, _, hline, hfault⟩⟩
    · exact .inr ⟨hwithin, .inr ⟨hlines, hname⟩⟩

theorem faults_eq_nil_iff_fits :
    c.faults columns lines = [] ↔
      c.Fits columns.length lines ∧ (columns ++ [classColumn]).Nodup := by
  rw [faults_eq_nil_iff, forall_mem_select]
  exact ⟨fun ⟨hwithin, hlines, hnames⟩ => ⟨⟨hwithin, hlines⟩, hnames⟩,
    fun ⟨⟨hwithin, hlines⟩, hnames⟩ => ⟨hwithin, hlines, hnames⟩⟩

theorem FirstFault.exists_data (h : c.FirstFault width lines fault) : ∃ d, fault = .data d := by
  cases h with
  | range => exact ⟨_, rfl⟩
  | line _ _ hfault =>
      cases hfault with
      | long => exact ⟨_, rfl⟩
      | value => exact ⟨_, rfl⟩

end Cloud

namespace DatasetLayout

/-- The first cloud is at fault, or the first repeated name, or the second cloud. -/
inductive FirstFault (layout : DatasetLayout) (lines : List (List String)) : Failure → Prop
  | first {fault : Failure} (h : layout.firstCloud.FirstFault layout.columns.length lines fault) :
      FirstFault layout lines fault
  | repeated (hfirst : layout.firstCloud.Fits layout.columns.length lines) {name : String}
      (h : Table.FirstRepeat (layout.columns ++ [classColumn]) name) :
      FirstFault layout lines (.table (.duplicateColumn name))
  | second (hfirst : layout.firstCloud.Fits layout.columns.length lines)
      (hnames : (layout.columns ++ [classColumn]).Nodup) {fault : Failure}
      (h : layout.secondCloud.FirstFault layout.columns.length lines fault) :
      FirstFault layout lines fault

variable {layout : DatasetLayout} {lines : List (List String)} {fault : Failure}

theorem head?_faults :
    (layout.faults lines).head? = some fault ↔ layout.FirstFault lines fault := by
  rw [faults, head?_append_eq_some_iff, Cloud.head?_faults, Cloud.head?_faults,
    Cloud.faults_eq_nil_iff_fits]
  constructor
  · rintro ((hfault | ⟨hfits, name, hname, rfl⟩) |
      ⟨⟨hfits, hnames⟩, hfault | ⟨-, name, hname, rfl⟩⟩)
    · exact .first hfault
    · exact .repeated hfits hname
    · exact .second hfits hnames hfault
    · exact absurd hnames hname.not_nodup
  · intro h
    cases h with
    | first hfault => exact .inl (.inl hfault)
    | repeated hfits hname => exact .inl (.inr ⟨hfits, _, hname, rfl⟩)
    | second hfits hnames hfault => exact .inr ⟨⟨hfits, hnames⟩, .inl hfault⟩

theorem firstFault_duplicateColumn_iff {name : String} :
    layout.FirstFault lines (.table (.duplicateColumn name)) ↔
      layout.firstCloud.Fits layout.columns.length lines ∧
        Table.FirstRepeat (layout.columns ++ [classColumn]) name := by
  constructor
  · intro h
    cases h with
    | first hfault =>
        obtain ⟨_, hdata⟩ := hfault.exists_data
        cases hdata
    | repeated hfits hname => exact ⟨hfits, hname⟩
    | second _ _ hfault =>
        obtain ⟨_, hdata⟩ := hfault.exists_data
        cases hdata
  · rintro ⟨hfits, hname⟩
    exact .repeated hfits hname

theorem FirstFault.data_or_duplicateColumn (h : layout.FirstFault lines fault) :
    (∃ d, fault = .data d) ∨ ∃ name, fault = .table (.duplicateColumn name) := by
  cases h with
  | first hfault => exact .inl hfault.exists_data
  | repeated => exact .inr ⟨_, rfl⟩
  | second _ _ hfault => exact .inl hfault.exists_data

end DatasetLayout

/-- Which fault of a text is reported.  A repeated name is hidden by a bad line of the first cloud
and hides the second cloud; no other failure of a table comes up. -/
theorem createDataset_first_fault (text : String) (layout : DatasetLayout) :
    (∀ fault, (createDataset text layout).outcome = .error fault ↔
        layout.FirstFault (Text.tokenLines text) fault) ∧
      (∀ name, (createDataset text layout).outcome = .error (.table (.duplicateColumn name)) ↔
        layout.firstCloud.Fits layout.columns.length (Text.tokenLines text) ∧
          Table.FirstRepeat (layout.columns ++ [classColumn]) name) ∧
      ∀ fault, (createDataset text layout).outcome = .error fault →
        (∃ d, fault = .data d) ∨ ∃ name, fault = .table (.duplicateColumn name) := by
  have hreports := reports_createDataset text layout
  rw [Text.map_words_lines] at hreports
  have hfault : ∀ fault, (createDataset text layout).outcome = .error fault ↔
      layout.FirstFault (Text.tokenLines text) fault := fun fault =>
    hreports.eq_error_iff.trans DatasetLayout.head?_faults
  refine ⟨hfault, fun name => ?_, fun fault h => ((hfault fault).mp h).data_or_duplicateColumn⟩
  rw [hfault, DatasetLayout.firstFault_duplicateColumn_iff]

/-- A bad token hides the repeated name, and this the range that is upside down. -/
theorem createDataset_first_fault_hidden :
    ∃ layout : DatasetLayout, layout = ⟨["x", "x"], ⟨1, 3⟩, ⟨3, 2⟩⟩ ∧
      (createDataset "\n1/n 2\n3 b/n\n" layout).outcome = .error (.data (.lineValue 2 "b/n")) ∧
      (createDataset "\n1/n 2\n3\n" layout).outcome = .error (.table (.duplicateColumn "x")) := by
  have hwhole : Cloud.LineFits 2 ["1/n", "2"] := by
    refine ⟨by decide, fun token htoken => ?_⟩
    rcases List.mem_pair.mp htoken with rfl | rfl
    · exact ⟨_, rfl⟩
    · exact ⟨_, rfl⟩
  have hshort : Cloud.LineFits 2 ["3"] := by
    refine ⟨by decide, fun token htoken => ?_⟩
    rw [List.mem_singleton.mp htoken]
    exact ⟨_, rfl⟩
  refine ⟨_, rfl, ?_, ?_⟩
  · have htokens : Text.tokenLines "\n1/n 2\n3 b/n\n" = [[], ["1/n", "2"], ["3", "b/n"]] := by
      decide
    have htoken : FirstAt (fun token => Cloud.number? token = none) ["3", "b/n"] 1 "b/n" := by
      refine ⟨rfl, rfl, fun earlier token hlow htoken => ?_⟩
      obtain rfl := Nat.lt_one_iff.mp hlow
      cases htoken
      obtain ⟨x, hx⟩ := hshort.numbers "3" List.mem_cons_self
      simp [hx]
    have hline : Cloud.FirstUnfit ⟨1, 3⟩ 2 [[], ["1/n", "2"], ["3", "b/n"]] 2 ["3", "b/n"] := by
      refine ⟨⟨by decide, by decide⟩, rfl, fun hfits => ?_,
        fun earlier other hleft hlow hother => ?_⟩
      · obtain ⟨x, hx⟩ := hfits.numbers "b/n" (by decide)
        cases hx
      · obtain rfl := Nat.le_antisymm (Nat.le_of_lt_succ hlow) hleft
        cases hother
        exact hwhole
    refine ((createDataset_first_fault _ _).1 _).mpr (htokens ▸ .first ?_)
    exact .line ⟨by decide, by decide⟩ hline (.value (by decide) htoken)
  · have htokens : Text.tokenLines "\n1/n 2\n3\n" = [[], ["1/n", "2"], ["3"]] := by
      decide
    refine ((createDataset_first_fault _ _).2.1 _).mpr ?_
    refine htokens ▸ ⟨⟨⟨by decide, by decide⟩, ?_⟩, ?_⟩
    · rintro line tokens ⟨hleft, hright⟩ hline
      have hright : line < 3 := hright
      have hleft : 1 ≤ line := hleft
      obtain rfl | rfl : line = 1 ∨ line = 2 := by omega
      · cases hline
        exact hwhole
      · cases hline
        exact hshort
    · exact ⟨["x"], ["class"], rfl, by decide, by decide⟩

end FeatureTable
