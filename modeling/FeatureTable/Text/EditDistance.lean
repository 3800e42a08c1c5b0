namespace FeatureTable.Text

/-!
The edit distance of two texts, computed row by row: the row of a text `s` holds the distances
from `s` to every initial part of the other text.
-/

/-- The cells right of a first cell: `diagonal` and `above` walk the previous row, `left` is the
cell just computed. -/
def distanceCells (c : Char) (diagonal left : Nat) : List Char → List Nat → List Nat
  | d :: ds, above :: row =>
      let cell := min (min (above + 1) (left + 1)) (diagonal + if c = d then 0 else 1)
      cell :: distanceCells c above cell ds row
  | _, _ => []

def distanceRow (c : Char) (target : List Char) : List Nat → List Nat
  | diagonal :: row => (diagonal + 1) :: distanceCells c diagonal (diagonal + 1) target row
  | [] => []

def distanceRows (target : List Char) (row : List Nat) : List Char → List Nat
  | [] => row
  | c :: cs => distanceRows target (distanceRow c target row) cs

def editDistance (s t : String) : Nat :=
  (distanceRows t.toList (List.range (t.toList.length + 1)) s.toList).getLastD 0

end FeatureTable.Text
