import FeatureTable.Proofs.Dataset
import FeatureTable.Proofs.Text.Lines

namespace FeatureTable

/-! The lines of both ranges become the rows of one table, or the text does not fit the layout. -/

def LineRange.Holds (range : LineRange) (line : Nat) : Prop :=
  range.left ≤ line ∧ line < range.right

theorem Cloud.mem_select {range : LineRange} {lines : List α} {x : α} :
    x ∈ select range lines ↔ ∃ line, range.Holds line ∧ lines[line]? = some x := by
  rw [List.mem_iff_getElem?]
  constructor
  · rintro ⟨index, hindex⟩
    have hlow : index < range.right - range.left := by
      have hlength := (List.getElem?_eq_some_iff.mp hindex).1
      rw [select, List.length_take] at hlength
      omega
    rw [getElem?_select hlow] at hindex
    exact ⟨range.left + index, ⟨by omega, by omega⟩, hindex⟩
  · rintro ⟨line, ⟨hleft, hright⟩, hline⟩
    refine ⟨line - range.left, ?_⟩
    rwa [getElem?_select (by omega), Nat.add_sub_cancel' hleft]

theorem Cloud.forall_mem_select {range : LineRange} {lines : List α} {P : α → Prop} :
    (∀ x ∈ select range lines, P x) ↔
      ∀ line x, range.Holds line → lines[line]? = some x → P x := by
  simp only [mem_select]
  exact ⟨fun h line x hline hx => h x ⟨line, hline, hx⟩,
    fun h x ⟨line, hline, hx⟩ => h line x hline hx⟩

/-- The cells of a row: the numbers of its line, `NaN` where the line has none, and the label. -/
structure Table.RowHolds (t : Table) (columns : List String) (index : Nat) (tokens : List String)
    (label : Float) : Prop where
  number : ∀ (place : Nat) (name token : String), columns[place]? = some name →
    tokens[place]? = some token → ∃ x, Cloud.number? token = some x ∧ t.cell? name index = some x
  missing : ∀ (place : Nat) (name : String), columns[place]? = some name → tokens[place]? = none →
    ∃ x : Float, x.isNaN = true ∧ t.cell? name index = some x
  label : t.cell? classColumn index = some label

namespace DatasetLayout

structure Fits (layout : DatasetLayout) (lines : List (List String)) : Prop where
  first : layout.first.Within lines.length
  second : layout.second.Within lines.length
  distinct : layout.columns.Nodup
  unlabeled : classColumn ∉ layout.columns
  lines : ∀ line tokens, layout.first.Holds line ∨ layout.second.Holds line →
    lines[line]? = some tokens → Cloud.LineFits layout.columns.length tokens

structure Describes (layout : DatasetLayout) (lines : List (List String)) (t : Table) : Prop where
  valid : t.Valid
  names : t.names = layout.columns ++ [classColumn]
  height : t.height =
    (layout.first.right - layout.first.left) + (layout.second.right - layout.second.left)
  first : ∀ index < layout.first.right - layout.first.left,
    ∃ tokens, lines[layout.first.left + index]? = some tokens ∧
      t.RowHolds layout.columns index tokens 0
  second : ∀ index < layout.second.right - layout.second.left,
    ∃ tokens, lines[layout.second.left + index]? = some tokens ∧
      t.RowHolds layout.columns (layout.first.right - layout.first.left + index) tokens 1

variable {layout : DatasetLayout} {lines : List (List String)}

end DatasetLayout

end FeatureTable
