import FeatureTable.Proofs.Table.OfRows

namespace FeatureTable.Table

theorem map_getD_range (values : Column) :
    (List.range values.length).map (fun index => values.getD index 0) = values := by
  apply List.ext_getElem
  · simp
  · intro index h h'
    simp [List.getD_eq_getElem?_getD, List.getElem?_eq_getElem h']

/-- Heads give the first column, tails the others. -/
theorem columnsOfRows_rowAt {columns : List (String × Column)} {height : Nat}
    (h : ∀ entry ∈ columns, entry.2.length = height) :
    columnsOfRows (columns.map Prod.fst) ((List.range height).map (rowAt columns)) = columns := by
  induction columns with
  | nil => rfl
  | cons entry columns ih =>
      have hheads : ((List.range height).map (rowAt (entry :: columns))).filterMap List.head? =
          entry.2 := by
        rw [List.filterMap_map, ← h entry List.mem_cons_self]
        exact (congrFun List.filterMap_eq_map _).trans (map_getD_range entry.2)
      have htails : ((List.range height).map (rowAt (entry :: columns))).map List.tail =
          (List.range height).map (rowAt columns) := by
        rw [List.map_map]
        rfl
      rw [List.map_cons, columnsOfRows, hheads, htails,
        ih fun other hother => h other (List.mem_cons_of_mem _ hother)]

theorem ofRows_rows (t : ValidTable) : ofRows t.names t.rows = .ok t.toTable := by
  rw [ofRows_eq_ok_iff, t.rows_eq_rowAt]
  refine ⟨t.valid.distinct, ?_, ?_⟩
  · intro row hrow
    obtain ⟨index, -, rfl⟩ := List.mem_map.mp hrow
    rw [rowAt, names, List.length_map, List.length_map]
  · rw [names, columnsOfRows_rowAt t.valid.aligned]

variable {t : Table} {names : List String} {rows : List (List Float)} {fault : TableError}

theorem rowAt_columnsOfRows (hwidths : ∀ row ∈ rows, row.length = names.length) {index : Nat}
    {row : List Float} (hrow : rows[index]? = some row) :
    rowAt (columnsOfRows names rows) index = row := by
  have hwidth := hwidths row (List.mem_of_getElem? hrow)
  induction names generalizing rows row with
  | nil => exact (List.length_eq_zero_iff.mp hwidth).symm
  | cons name names ih =>
      obtain ⟨value, rest, rfl⟩ := List.exists_cons_of_length_eq_add_one hwidth
      have hhead : (rows.filterMap List.head?)[index]? = some value := by
        rw [getElem?_filterMap_head? (ne_nil_of_length hwidths), hrow]
        rfl
      have htail : (rows.map List.tail)[index]? = some rest := by
        rw [List.getElem?_map, hrow]
        rfl
      rw [columnsOfRows, rowAt, List.map_cons, List.getD_eq_getElem?_getD, hhead]
      exact congrArg (value :: ·) (ih (length_of_mem_map_tail hwidths) htail (Nat.succ.inj hwidth))

theorem rows_of_ofRows (h : ofRows names rows = .ok t) (hnames : names ≠ []) : t.rows = rows := by
  have hrows : t.rows = (List.range t.height).map (rowAt t.columns) :=
    (ValidTable.ofRows h).rows_eq_rowAt
  rw [hrows, height_of_ofRows h hnames]
  obtain ⟨-, hwidths, rfl⟩ := ofRows_eq_ok_iff.mp h
  apply List.ext_getElem
  · simp
  · intro index _ hindex
    rw [List.getElem_map, List.getElem_range]
    exact rowAt_columnsOfRows hwidths (List.getElem?_eq_getElem hindex)

/-- Taking rows from a table and making a table of rows undo each other; rows that are of no table
are refused with the first fault. -/
theorem ofRows_inverts_rows (ht : t.Valid) (names : List String) (rows : List (List Float)) :
    ofRows t.names t.rows = .ok t ∧
      ((∃ u, ofRows names rows = .ok u) ↔
        names.Nodup ∧ ∀ row ∈ rows, row.length = names.length) ∧
      (∀ u, ofRows names rows = .ok u → u.Valid ∧ u.names = names ∧
        (names ≠ [] → u.rows = rows ∧ u.height = rows.length)) ∧
      ∀ fault, ofRows names rows = .error fault ↔ RowsFault names rows fault := by
  have hreports := reports_ofRows names rows
  refine ⟨ofRows_rows ⟨t, ht⟩, ?_, fun u hu => ?_, fun fault => ?_⟩
  · rw [hreports.exists_ok_iff, rowsFaults, List.append_eq_nil_iff, repeatFaults_eq_nil_iff,
      widthsFaults_eq_nil_iff]
  · exact ⟨(ValidTable.ofRows hu).valid, names_of_ofRows hu,
      fun hnames => ⟨rows_of_ofRows hu hnames, height_of_ofRows hu hnames⟩⟩
  · rw [hreports.eq_error_iff, head?_rowsFaults]

theorem ofRows_inverts_rows_two_short :
    (⟨[("x", [1, 3]), ("y", [2, 4])]⟩ : Table).Valid ∧
      ofRows (⟨[("x", [1, 3]), ("y", [2, 4])]⟩ : Table).names
        (⟨[("x", [1, 3]), ("y", [2, 4])]⟩ : Table).rows =
          .ok ⟨[("x", [1, 3]), ("y", [2, 4])]⟩ ∧
      (⟨[("u", [1, 4]), ("v", [2, 5]), ("w", [3, 6])]⟩ : Table).rows = [[1, 2, 3], [4, 5, 6]] ∧
      RowsFault ["u", "v", "w"] [[1, 2, 3], [4], []] (.rowWidthMismatch 1 3 1) := by
  have hvalid : (⟨[("x", [1, 3]), ("y", [2, 4])]⟩ : Table).Valid :=
    ⟨by decide, by decide⟩
  have hgood := ofRows_inverts_rows hvalid ["u", "v", "w"] [[1, 2, 3], [4, 5, 6]]
  have hshort := ofRows_inverts_rows hvalid ["u", "v", "w"] [[1, 2, 3], [4], []]
  exact ⟨hvalid, hgood.1, ((hgood.2.2.1 _ rfl).2.2 (by simp)).1, (hshort.2.2.2 _).mp rfl⟩

end FeatureTable.Table
