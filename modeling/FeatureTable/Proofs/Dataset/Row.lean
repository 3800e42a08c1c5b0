import FeatureTable.Dataset.Create
import FeatureTable.Proofs.Reports
import FeatureTable.Proofs.Traced

namespace FeatureTable.Cloud

variable {width : Nat} {label : Float} {tokens : List String} {values : List Float}

theorem dropMarkers_cons_of_not {c : Char} {cs : List Char}
    (h : ¬ (c = '/' ∧ cs.head? = some 'n')) : dropMarkers (c :: cs) = c :: dropMarkers cs := by
  rw [dropMarkers]
  rintro rest rfl rfl
  exact h ⟨rfl, rfl⟩

theorem dropMarkers_append {before after : List Char} (h : ¬ ['/', 'n'] <:+: before)
    (hafter : after.head? ≠ some 'n') :
    dropMarkers (before ++ after) = before ++ dropMarkers after := by
  induction before with
  | nil => rfl
  | cons c before ih =>
      have hrest : ¬ ['/', 'n'] <:+: before := fun hmarker =>
        h (hmarker.trans (List.suffix_cons c before).isInfix)
      rw [List.cons_append, dropMarkers_cons_of_not, ih hrest, List.cons_append]
      rintro ⟨rfl, hhead⟩
      cases before with
      | nil => exact hafter hhead
      | cons d before =>
          cases hhead
          exact h ⟨[], before, rfl⟩

theorem dropMarkers_intercalate {pieces : List (List Char)}
    (h : ∀ piece ∈ pieces, ¬ ['/', 'n'] <:+: piece) :
    dropMarkers (['/', 'n'].intercalate pieces) = pieces.flatten := by
  induction pieces with
  | nil => rfl
  | cons piece pieces ih =>
      obtain ⟨hpiece, hpieces⟩ := List.forall_mem_cons.mp h
      cases pieces with
      | nil =>
          have hlast := @dropMarkers_append piece [] hpiece (by simp)
          rw [List.append_nil, dropMarkers] at hlast
          rw [List.intercalate_singleton, hlast]
          rfl
      | cons next pieces =>
          rw [List.intercalate_cons_cons, List.append_assoc,
            dropMarkers_append hpiece (by simp), List.flatten_cons]
          exact congrArg _ (ih hpieces)

/-- The number that a token stands for once its markers are dropped. -/
def number? (token : String) : Option Float :=
  Decimal.readChars? (dropMarkers token.toList)

theorem outcome_readToken (line : Nat) (token : String) :
    (readToken line token).outcome =
      match number? token with
      | some x => .ok x
      | none => .error (.data (.lineValue line token)) := by
  unfold readToken number?
  dsimp only
  cases Decimal.readChars? (dropMarkers token.toList) <;> rfl

def tokenFaults (line : Nat) (token : String) : List Failure :=
  if (number? token).isSome then [] else [.data (.lineValue line token)]

theorem reports_readToken (line : Nat) (token : String) :
    Reports (fun x => number? token = some x) (readToken line token).outcome
      (tokenFaults line token) := by
  rw [outcome_readToken, tokenFaults]
  cases number? token with
  | none => exact .fails _ []
  | some x => exact .passes rfl

structure LineFits (width : Nat) (tokens : List String) : Prop where
  width : tokens.length ≤ width
  numbers : ∀ token ∈ tokens, ∃ x, number? token = some x

/-- A row holds the numbers of its line, then nothing but `NaN` up to the label. -/
structure IsRow (width : Nat) (label : Float) (tokens : List String) (row : List Float) :
    Prop where
  length : row.length = width + 1
  number : ∀ (place : Nat) (token : String), tokens[place]? = some token →
    ∃ x, number? token = some x ∧ row[place]? = some x
  missing : ∀ place : Nat, tokens.length ≤ place → place < width → row[place]? = some (0 / 0)
  label : row[width]? = some label

theorem isRow_of_values (hwidth : tokens.length ≤ width)
    (hvalues : List.Forall₂ (fun token x => number? token = some x) tokens values) :
    IsRow width label tokens
      (values ++ List.replicate (width - values.length) (0 / 0) ++ [label]) := by
  have hlength : values.length = tokens.length := hvalues.length_eq.symm
  have hfilled :
      (values ++ List.replicate (width - values.length) (0 / 0 : Float)).length = width := by
    rw [List.length_append, List.length_replicate, hlength, Nat.add_sub_cancel' hwidth]
  refine ⟨?_, ?_, ?_, ?_⟩
  · rw [List.length_append, hfilled, List.length_singleton]
  · intro place token htoken
    obtain ⟨hplace, rfl⟩ := List.getElem?_eq_some_iff.mp htoken
    have hplace' : place < values.length := hlength.symm ▸ hplace
    refine ⟨values[place], hvalues.get hplace hplace', ?_⟩
    rw [List.append_assoc, List.getElem?_append_left hplace', List.getElem?_eq_getElem hplace']
  · intro place hmissing hplace
    rw [List.getElem?_append_left (hfilled.symm ▸ hplace),
      List.getElem?_append_right (hlength.symm ▸ hmissing), List.getElem?_replicate,
      if_pos (by omega)]
  · rw [List.getElem?_append_right (Nat.le_of_eq hfilled), hfilled, Nat.sub_self]
    rfl

def lineFaults (width line : Nat) (tokens : List String) : List Failure :=
  (if width < tokens.length then [.data (.longLine line tokens.length width)] else []) ++
    tokens.flatMap (tokenFaults line)

theorem reports_readRow (width : Nat) (label : Float) (line : Nat) (tokens : List String) :
    Reports (IsRow width label tokens) (readRow width label line tokens).outcome
      (lineFaults width line tokens) := by
  unfold readRow lineFaults
  by_cases hwidth : width < tokens.length
  · rw [if_pos hwidth, if_pos hwidth]
    exact .fails _ _
  · rw [if_neg hwidth, if_neg hwidth, List.nil_append,
      ← List.append_nil (tokens.flatMap (tokenFaults line))]
    simp only [Traced.outcome_bind, Traced.outcome_pure, Traced.outcome_mapM]
    refine (Reports.mapM fun token _ => reports_readToken line token).bind fun values hvalues => ?_
    exact .passes (isRow_of_values (Nat.not_lt.mp hwidth) hvalues)

/-- The faults of lines, the first of which has the given number. -/
def rowFaults (width line : Nat) (selected : List (List String)) : List Failure :=
  (selected.zipIdx line).flatMap fun entry => lineFaults width entry.2 entry.1

theorem reports_readRows (width : Nat) (label : Float) (line : Nat)
    (selected : List (List String)) :
    Reports (List.Forall₂ (IsRow width label) selected)
      (readRows width label line selected).outcome (rowFaults width line selected) := by
  induction selected generalizing line with
  | nil => exact .passes .nil
  | cons tokens selected ih =>
      rw [readRows, rowFaults, List.zipIdx_cons, List.flatMap_cons,
        ← List.append_nil ((selected.zipIdx (line + 1)).flatMap _)]
      simp only [Traced.outcome_bind, Traced.outcome_pure]
      refine (reports_readRow width label line tokens).bind fun row hrow => ?_
      exact (ih (line + 1)).bind fun rows hrows => .passes (.cons hrow hrows)

theorem tokenFaults_eq_nil_iff {line : Nat} {token : String} :
    tokenFaults line token = [] ↔ ∃ x, number? token = some x := by
  rw [tokenFaults, ← Option.isSome_iff_exists]
  split <;> simp_all

theorem lineFaults_eq_nil_iff {line : Nat} :
    lineFaults width line tokens = [] ↔ LineFits width tokens := by
  rw [lineFaults, List.append_eq_nil_iff, List.flatMap_eq_nil_iff]
  simp only [tokenFaults_eq_nil_iff]
  constructor
  · rintro ⟨hwidth, hnumbers⟩
    refine ⟨Nat.not_lt.mp fun hlong => ?_, hnumbers⟩
    rw [if_pos hlong] at hwidth
    cases hwidth
  · intro h
    exact ⟨if_neg (Nat.not_lt.mpr h.width), h.numbers⟩

theorem rowFaults_eq_nil_iff {line : Nat} {selected : List (List String)} :
    rowFaults width line selected = [] ↔ ∀ tokens ∈ selected, LineFits width tokens := by
  induction selected generalizing line with
  | nil => simp [rowFaults]
  | cons tokens selected ih =>
      rw [rowFaults, List.zipIdx_cons, List.flatMap_cons, List.append_eq_nil_iff,
        lineFaults_eq_nil_iff, List.forall_mem_cons]
      exact and_congr_right fun _ => ih

end FeatureTable.Cloud
