import FeatureTable.Text.Blank
import Mathlib.Data.List.Basic

namespace FeatureTable.Text

def pieceWords (line : List Char) : List (List Char) :=
  (line.splitOnP isBlank).filter fun piece => !piece.isEmpty

theorem wordsFrom_eq (word cs : List Char) :
    wordsFrom word cs = (cs.splitOnPPrepend isBlank word).filter fun piece => !piece.isEmpty := by
  have hconsWord (word : List Char) (words : List (List Char)) :
      consWord word words =
        if !word.reverse.isEmpty then word.reverse :: words else words := by
    cases word <;> simp [consWord]
  induction cs generalizing word with
  | nil => rw [wordsFrom, hconsWord, List.splitOnPPrepend_nil, List.filter_cons, List.filter_nil]
  | cons c cs ih =>
      rw [wordsFrom, List.splitOnPPrepend_cons_eq_if, ih, ih, hconsWord]
      split
      · rw [List.filter_cons, List.splitOnPPrepend_nil_right]
      · rfl

/-- A line without the carriage return at its end. -/
def dropLastReturn (line : List Char) : List Char :=
  if line.getLast? = some '\r' then line.dropLast else line

theorem reverse_dropReturn (line : List Char) :
    (dropReturn line).reverse = dropLastReturn line.reverse := by
  rw [dropLastReturn, List.getLast?_reverse]
  cases line with
  | nil => rfl
  | cons c line =>
      by_cases hreturn : c = '\r'
      · subst hreturn
        simp [dropReturn]
      · simp [dropReturn, hreturn]

/-- What a line feed ends is a line; what is behind the last one is a line if it is not empty. -/
def pieceLines (text : List Char) : List (List Char) :=
  let pieces := text.splitOn '\n'
  pieces.dropLast.map dropLastReturn ++ pieces.getLast?.toList.filter fun piece => !piece.isEmpty

theorem linesFrom_eq (line cs : List Char) :
    linesFrom line cs =
      (cs.splitOnPPrepend (· == '\n') line).dropLast.map dropLastReturn ++
        (cs.splitOnPPrepend (· == '\n') line).getLast?.toList.filter
          fun piece => !piece.isEmpty := by
  induction cs generalizing line with
  | nil => cases line <;> simp [linesFrom]
  | cons c cs ih =>
      rw [linesFrom, List.splitOnPPrepend_cons_eq_if, ih, ih]
      by_cases hfeed : c = '\n'
      · have hrest := List.splitOnP_ne_nil (· == '\n') cs
        rw [if_pos hfeed, if_pos (by simpa using hfeed), List.splitOnPPrepend_nil_right,
          reverse_dropReturn, List.dropLast_cons_of_ne_nil hrest, List.map_cons, List.cons_append,
          List.getLast?_cons_of_ne_nil hrest]
      · rw [if_neg hfeed, if_neg (by simpa using hfeed)]

def tokenLines (text : String) : List (List String) :=
  (pieceLines text.toList).map fun line => (pieceWords line).map String.ofList

theorem map_words_lines (text : String) : (lines text).map words = tokenLines text := by
  rw [lines, linesFrom_eq, tokenLines, List.map_map]
  apply List.map_congr_left
  intro line _
  rw [Function.comp_apply, words, String.toList_ofList, wordsFrom_eq]
  rfl

end FeatureTable.Text
