import FeatureTable.Text.Blank
import Mathlib.Data.List.TakeWhile

namespace FeatureTable.Text

theorem trim_eq_nil_iff {cs : List Char} : trim cs = [] ↔ ∀ c ∈ cs, isBlank c = true := by
  rw [trim, List.reverse_eq_nil_iff, List.dropWhile_eq_nil_iff]
  simp only [List.mem_reverse]
  constructor
  · intro h c hc
    rw [← List.takeWhile_append_dropWhile (p := isBlank) (l := cs)] at hc
    rcases List.mem_append.mp hc with hbefore | hafter
    · exact List.mem_takeWhile_imp hbefore
    · exact h c hafter
  · exact fun h c hc => h c ((List.dropWhile_sublist isBlank).subset hc)

theorem isAllBlank_iff {s : String} : isAllBlank s = true ↔ trim s.toList = [] := by
  rw [isAllBlank, List.all_eq_true, trim_eq_nil_iff]

end FeatureTable.Text
