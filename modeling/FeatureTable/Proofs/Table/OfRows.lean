import FeatureTable.Proofs.Table.Repeat

namespace FeatureTable.Table

variable {t : Table} {names : List String} {name : String} {width start : Nat}
  {rows : List (List Float)} {fault : TableError}

def widthFaults (width index : Nat) (row : List Float) : List TableError :=
  if row.length = width then [] else [.rowWidthMismatch index width row.length]

def widthsFaults (width start : Nat) (rows : List (List Float)) : List TableError :=
  (rows.zipIdx start).flatMap fun entry => widthFaults width entry.2 entry.1

def rowsFaults (names : List String) (rows : List (List Float)) : List TableError :=
  repeatFaults names ++ widthsFaults names.length 0 rows

theorem widthFaults_eq_nil_iff (index : Nat) (row : List Float) :
    widthFaults width index row = [] ↔ ¬ row.length ≠ width := by
  rw [widthFaults, ite_eq_left_iff, not_not]
  simp

theorem reports_checkWidths (width start : Nat) (rows : List (List Float)) :
    Reports (fun _ => True) (checkWidths width start rows) (widthsFaults width start rows) := by
  induction rows generalizing start with
  | nil => exact .passes trivial
  | cons row rows ih =>
      rw [checkWidths, widthsFaults, List.zipIdx_cons, List.flatMap_cons, widthFaults]
      by_cases hrow : row.length = width
      · rw [if_pos hrow, if_pos hrow, List.nil_append]
        exact ih (start + 1)
      · rw [if_neg hrow, if_neg hrow]
        exact .fails _ _

theorem widthsFaults_eq_nil_iff :
    widthsFaults width start rows = [] ↔ ∀ row ∈ rows, row.length = width := by
  induction rows generalizing start with
  | nil => simp [widthsFaults]
  | cons row rows ih =>
      rw [widthsFaults, List.zipIdx_cons, List.flatMap_cons, List.append_eq_nil_iff,
        widthFaults_eq_nil_iff, not_not, ← widthsFaults, ih, List.forall_mem_cons]

/-- Which fault is reported: no row is looked at before the names have passed. -/
inductive RowsFault (names : List String) (rows : List (List Float)) : TableError → Prop
  | repeated {name : String} (h : FirstRepeat names name) :
      RowsFault names rows (.duplicateColumn name)
  | width (hdistinct : names.Nodup) {place : Nat} {row : List Float}
      (h : FirstAt (fun row => row.length ≠ names.length) rows place row) :
      RowsFault names rows (.rowWidthMismatch place names.length row.length)

theorem head?_widthsFaults :
    (widthsFaults width 0 rows).head? = some fault ↔
      ∃ place row, FirstAt (fun row => row.length ≠ width) rows place row ∧
        fault = .rowWidthMismatch place width row.length := by
  rw [widthsFaults, head?_flatMap_zipIdx widthFaults_eq_nil_iff]
  refine exists_congr fun place => exists_congr fun row => and_congr_right fun h => ?_
  rw [widthFaults, if_neg h.holds, Nat.zero_add, List.head?_cons, Option.some.injEq, eq_comm]

theorem head?_rowsFaults :
    (rowsFaults names rows).head? = some fault ↔ RowsFault names rows fault := by
  rw [rowsFaults, head?_append_eq_some_iff, head?_repeatFaults, repeatFaults_eq_nil_iff,
    head?_widthsFaults]
  constructor
  · rintro (⟨name, hname, rfl⟩ | ⟨hdistinct, place, row, hrow, rfl⟩)
    · exact .repeated hname
    · exact .width hdistinct hrow
  · intro h
    cases h with
    | repeated hname => exact .inl ⟨_, hname, rfl⟩
    | width hdistinct hrow => exact .inr ⟨hdistinct, _, _, hrow, rfl⟩

theorem reports_ofRows (names : List String) (rows : List (List Float)) :
    Reports (fun t => t = ⟨columnsOfRows names rows⟩) (ofRows names rows)
      (rowsFaults names rows) := by
  rw [ofRows, rowsFaults, ← List.append_nil (widthsFaults _ _ _)]
  refine (reports_checkDistinct names).bind fun _ _ => ?_
  exact (reports_checkWidths names.length 0 rows).bind fun _ _ => .passes rfl

theorem ofRows_of_firstRepeat (h : FirstRepeat names name) (rows : List (List Float)) :
    ofRows names rows = .error (.duplicateColumn name) := by
  rw [(reports_ofRows names rows).eq_error_iff, head?_rowsFaults]
  exact .repeated h

/-- Rows of the right width become a table unless a name is repeated. -/
theorem reports_ofRows_of_width (hwidths : ∀ row ∈ rows, row.length = names.length) :
    Reports (fun t => ofRows names rows = .ok t) (ofRows names rows) (repeatFaults names) := by
  have hreports := (reports_ofRows names rows).result
  rwa [rowsFaults, widthsFaults_eq_nil_iff.mpr hwidths, List.append_nil] at hreports

theorem ofRows_eq_ok_iff :
    ofRows names rows = .ok t ↔
      names.Nodup ∧ (∀ row ∈ rows, row.length = names.length) ∧ t = ⟨columnsOfRows names rows⟩ := by
  rw [(reports_ofRows names rows).eq_ok_iff, rowsFaults, List.append_eq_nil_iff,
    repeatFaults_eq_nil_iff, widthsFaults_eq_nil_iff, and_assoc]

@[simp] theorem map_fst_columnsOfRows (names : List String) (rows : List (List Float)) :
    (columnsOfRows names rows).map Prod.fst = names := by
  induction names generalizing rows with
  | nil => rfl
  | cons name names ih => rw [columnsOfRows, List.map_cons, ih]

theorem names_of_ofRows (h : ofRows names rows = .ok t) : t.names = names := by
  obtain ⟨-, -, rfl⟩ := ofRows_eq_ok_iff.mp h
  exact map_fst_columnsOfRows names rows

theorem ne_nil_of_length (h : ∀ row ∈ rows, row.length = width + 1) :
    ∀ row ∈ rows, row ≠ [] := by
  rintro row hrow rfl
  cases h _ hrow

theorem length_of_mem_map_tail (h : ∀ row ∈ rows, row.length = width + 1) :
    ∀ row ∈ rows.map List.tail, row.length = width := by
  intro row hrow
  obtain ⟨longer, hlonger, rfl⟩ := List.mem_map.mp hrow
  rw [List.length_tail, h longer hlonger, Nat.add_sub_cancel]

theorem length_filterMap_head? (h : ∀ row ∈ rows, row ≠ []) :
    (rows.filterMap List.head?).length = rows.length := by
  rw [List.length_filterMap_eq_countP, List.countP_eq_length]
  intro row hrow
  exact List.isSome_head?.mpr (h row hrow)

theorem length_of_mem_columnsOfRows (h : ∀ row ∈ rows, row.length = names.length)
    {entry : String × Column} (hentry : entry ∈ columnsOfRows names rows) :
    entry.2.length = rows.length := by
  induction names generalizing rows with
  | nil => cases hentry
  | cons name names ih =>
      rcases List.mem_cons.mp hentry with rfl | htail
      · exact length_filterMap_head? (ne_nil_of_length h)
      · rw [ih (length_of_mem_map_tail h) htail, List.length_map]

theorem getElem?_filterMap_head? (h : ∀ row ∈ rows, row ≠ []) (index : Nat) :
    (rows.filterMap List.head?)[index]? = rows[index]?.bind fun row => row[0]? := by
  induction rows generalizing index with
  | nil => rfl
  | cons row rows ih =>
      obtain ⟨value, rest, rfl⟩ := List.exists_cons_of_ne_nil (h row List.mem_cons_self)
      cases index with
      | zero => rfl
      | succ index => exact ih (fun other hother => h other (List.mem_cons_of_mem _ hother)) index

theorem lookup_columnsOfRows (hdistinct : names.Nodup)
    (hwidths : ∀ row ∈ rows, row.length = names.length) {place : Nat} {name : String}
    (hname : names[place]? = some name) (index : Nat) :
    (((columnsOfRows names rows).lookup name).bind fun values => values[index]?) =
      rows[index]?.bind fun row => row[place]? := by
  induction names generalizing rows place with
  | nil => cases hname
  | cons first names ih =>
      rw [List.nodup_cons] at hdistinct
      rw [columnsOfRows, lookup_entry]
      cases place with
      | zero =>
          cases hname
          rw [if_pos rfl, Option.bind_some]
          exact getElem?_filterMap_head? (ne_nil_of_length hwidths) index
      | succ place =>
          have hother : name ≠ first := fun heq =>
            hdistinct.1 (heq ▸ List.mem_of_getElem? hname)
          rw [if_neg hother, ih hdistinct.2 (length_of_mem_map_tail hwidths) hname,
            List.getElem?_map, Option.bind_map]
          exact congrArg _ (funext fun row => List.getElem?_tail)

theorem cell?_of_ofRows (h : ofRows names rows = .ok t) {place : Nat} {name : String}
    (hname : names[place]? = some name) (index : Nat) :
    t.cell? name index = rows[index]?.bind fun row => row[place]? := by
  obtain ⟨hdistinct, hwidths, rfl⟩ := ofRows_eq_ok_iff.mp h
  exact lookup_columnsOfRows hdistinct hwidths hname index

theorem height_of_ofRows (h : ofRows names rows = .ok t) (hnames : names ≠ []) :
    t.height = rows.length := by
  obtain ⟨-, hwidths, rfl⟩ := ofRows_eq_ok_iff.mp h
  cases names with
  | nil => exact absurd rfl hnames
  | cons name names => exact length_of_mem_columnsOfRows hwidths List.mem_cons_self

end FeatureTable.Table

namespace FeatureTable.ValidTable

open Table

variable {t : Table} {names : List String} {rows : List (List Float)}

def ofRows (h : Table.ofRows names rows = .ok t) : ValidTable where
  toTable := t
  valid := by
    obtain ⟨hdistinct, hwidths, rfl⟩ := ofRows_eq_ok_iff.mp h
    refine ⟨?_, aligned_of_length rows.length fun entry => length_of_mem_columnsOfRows hwidths⟩
    rwa [Table.names, map_fst_columnsOfRows]

theorem map_columnD_names (t : ValidTable) :
    t.names.map t.columnD = t.columns.map Prod.snd := by
  rw [Table.names, List.map_map]
  apply List.map_congr_left
  intro entry hentry
  rw [Function.comp_apply, columnD, t.column?_of_mem hentry]
  rfl

end FeatureTable.ValidTable

namespace FeatureTable.Table

variable {t u : Table} {names : List String} {upper lower : List (List Float)}

theorem columnsOfRows_append (names : List String) (upper lower : List (List Float)) :
    columnsOfRows names (upper ++ lower) =
      List.zipWith extended (columnsOfRows names upper)
        ((columnsOfRows names lower).map Prod.snd) := by
  induction names generalizing upper lower with
  | nil => rfl
  | cons name names ih =>
      rw [columnsOfRows, columnsOfRows, columnsOfRows, List.filterMap_append, List.map_append, ih]
      rfl

theorem ofRows_append (ht : ofRows names upper = .ok t) (hu : ofRows names lower = .ok u) :
    ofRows names (upper ++ lower) = .ok ⟨columnsOfRows names (upper ++ lower)⟩ := by
  obtain ⟨hdistinct, hupper, -⟩ := ofRows_eq_ok_iff.mp ht
  obtain ⟨-, hlower, -⟩ := ofRows_eq_ok_iff.mp hu
  exact ofRows_eq_ok_iff.mpr ⟨hdistinct, List.forall_mem_append.mpr ⟨hupper, hlower⟩, rfl⟩

theorem append_of_ofRows (ht : ofRows names upper = .ok t)
    (hu : ofRows names lower = .ok u) (hnames : names ≠ []) :
    t.append u = .ok ⟨columnsOfRows names (upper ++ lower)⟩ := by
  have hshared : t.names = u.names := (names_of_ofRows ht).trans (names_of_ofRows hu).symm
  have hempty : t.isEmpty = false := isEmpty_eq_false_iff.mpr (names_of_ofRows ht ▸ hnames)
  have hfound : t.names.mapM u.get = .ok (u.columns.map Prod.snd) := by
    have hcolumns : u.names.map u.columnD = u.columns.map Prod.snd :=
      (ValidTable.ofRows hu).map_columnD_names
    rw [hshared, ← hcolumns]
    exact (u.reports_mapM_get u.names).eq_ok_iff.mpr
      ⟨flatMap_absenceFaults_eq_nil_iff.mpr fun _ hname => hname, rfl⟩
  obtain ⟨-, -, rfl⟩ := ofRows_eq_ok_iff.mp ht
  obtain ⟨-, -, rfl⟩ := ofRows_eq_ok_iff.mp hu
  rw [append_of_not_isEmpty hempty, hfound, columnsOfRows_append]
  rfl

end FeatureTable.Table
