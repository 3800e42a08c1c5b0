import FeatureTable.Csv.Table
import FeatureTable.Proofs.Csv.Records
import FeatureTable.Proofs.Decimal.ReadBack
import FeatureTable.Proofs.Table.Transpose

namespace FeatureTable.Csv

theorem readCell_plain (row : Nat) (column : String) (x : Float) :
    readCell row column (Decimal.plain x) = .ok x := by
  rw [readCell, Text.trim_eq_self fun c => Decimal.isBlank_of_mem_plain,
    Decimal.readChars?_plain]

theorem readCells_map_plain (row : Nat) {names : List String} {xs : List Float}
    (hlength : xs.length = names.length) : readCells row names (xs.map Decimal.plain) = .ok xs := by
  induction names generalizing xs with
  | nil => rw [List.eq_nil_of_length_eq_zero hlength, List.map_nil, readCells]; simp
  | cons name names ih =>
      cases xs with
      | nil => cases hlength
      | cons x xs =>
          rw [List.map_cons, readCells, readCell_plain, ih (Nat.succ.inj hlength)]
          rfl

theorem readRow_fieldBytes (row : Nat) {names : List String} {xs : List Float}
    (hlength : xs.length = names.length) :
    readRow names row ((xs.map Decimal.plain).map fieldBytes) = .ok xs := by
  rw [readRow, if_neg (by simpa using hlength), recordTexts?_fieldBytes]
  exact readCells_map_plain row hlength

theorem readRows_fieldBytes (row : Nat) {names : List String} {rows : List (List Float)}
    (hrows : ∀ xs ∈ rows, xs.length = names.length) :
    readRows names row ((rows.map (List.map Decimal.plain)).map (List.map fieldBytes)) =
      .ok rows := by
  induction rows generalizing row with
  | nil => rfl
  | cons xs rows ih =>
      rw [List.map_cons, List.map_cons, readRows, readRow_fieldBytes row (hrows xs (by simp)),
        ih (row + 1) fun ys hys => hrows ys (List.mem_cons_of_mem _ hys)]
      rfl

theorem length_of_mem_rows {t : ValidTable} {row : List Float} (hrow : row ∈ t.rows) :
    row.length = t.names.length := by
  rw [t.rows_eq_rowAt] at hrow
  obtain ⟨index, -, rfl⟩ := List.mem_map.mp hrow
  rw [Table.rowAt, Table.names, List.length_map, List.length_map]

theorem readContents_writeTable {t : ValidTable} {first : String}
    (hfirst : t.names.head? = some first) (hmark : first.toList.head? ≠ some '\uFEFF') :
    readContents (writeTable t).toUTF8.toList = .ok ⟨t.names, t.rows⟩ := by
  obtain ⟨others, hnames⟩ := List.head?_eq_some_iff.mp hfirst
  have hlength : ∀ row ∈ t.rows, row.length = t.names.length :=
    fun _ => length_of_mem_rows
  have hwritten : (writeTable t).toUTF8.toList =
      Text.utf8 (writeRecord (first :: others) ++
        ((t.rows.map (List.map Decimal.plain)).map writeRecord).flatten) := by
    rw [writeTable, Text.toList_toUTF8_ofList, hnames, List.map_map]
    rfl
  have hrecords : ∀ record ∈ t.rows.map (List.map Decimal.plain), record ≠ [] := by
    intro record hrecord
    obtain ⟨row, hrow, rfl⟩ := List.mem_map.mp hrecord
    refine List.ne_nil_of_length_pos ?_
    rw [List.length_map, hlength row hrow, hnames]
    exact Nat.succ_pos _
  have hread : readContents (writeTable t).toUTF8.toList =
      (readRows t.names 0 ((t.rows.map (List.map Decimal.plain)).map (List.map fieldBytes))).map
        (Contents.mk t.names) := by
    rw [readContents, hwritten, records_writeRecords hrecords hmark, List.map_cons,
      List.headD_cons, recordTexts?_fieldBytes, List.tail_cons, ← hnames]
    rfl
  rw [hread, readRows_fieldBytes 0 hlength]
  rfl

theorem toTable_of_valid (t : ValidTable) :
    Contents.toTable ⟨t.names, t.rows⟩ = .ok t.toTable := by
  rw [Contents.toTable, Table.ofRows_rows]
  rfl

end FeatureTable.Csv
