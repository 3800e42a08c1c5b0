namespace FeatureTable.Path

def isAbsolute (path : String) : Bool :=
  path.toList.head? == some '/'

/-- An absolute path stays as it is under every base. -/
def join (base path : String) : String :=
  if isAbsolute path || base.isEmpty then path
  else if base.toList.getLast? == some '/' then base ++ path
  else base ++ "/" ++ path

/-- Slashes at the end, and dots behind a slash, name no part.  The characters are held last
first. -/
def dropEmptyParts : List Char → List Char
  | '.' :: '/' :: rest => dropEmptyParts ('/' :: rest)
  | '/' :: c :: rest => dropEmptyParts (c :: rest)
  | cs => cs

/-- The path without its last part; the root and the empty path have none. -/
def parent? (path : String) : Option String :=
  match dropEmptyParts path.toList.reverse with
  | [] => none
  | ['/'] => none
  | cs => some (String.ofList (dropEmptyParts (cs.dropWhile (· != '/'))).reverse)

theorem dropEmptyParts_ne (c : Char) (rest cs : List Char) :
    dropEmptyParts cs ≠ '/' :: c :: rest := by
  fun_induction dropEmptyParts cs with
  | case1 _ ih => exact ih
  | case2 _ _ ih => exact ih
  | case3 cs _ hslash =>
      intro heq
      exact hslash c rest heq

theorem length_dropEmptyParts_le (cs : List Char) : (dropEmptyParts cs).length ≤ cs.length := by
  fun_induction dropEmptyParts cs with
  | case1 _ ih => exact Nat.le_succ_of_le ih
  | case2 _ _ ih => exact Nat.le_succ_of_le ih
  | case3 => exact Nat.le_refl _

theorem length_dropWhile_le (p : Char → Bool) (cs : List Char) :
    (cs.dropWhile p).length ≤ cs.length :=
  (List.dropWhile_sublist p).length_le

theorem length_parent?_lt {path parent : String} (h : parent? path = some parent) :
    parent.toList.length < path.toList.length := by
  unfold parent? at h
  have hle := length_dropEmptyParts_le path.toList.reverse
  have hne := fun c rest => dropEmptyParts_ne c rest path.toList.reverse
  generalize dropEmptyParts path.toList.reverse = cs at h hle hne
  rw [List.length_reverse] at hle
  split at h
  · cases h
  · cases h
  · rename_i hnil hroot
    cases h
    rw [String.toList_ofList, List.length_reverse]
    refine Nat.lt_of_le_of_lt (length_dropEmptyParts_le _) (Nat.lt_of_lt_of_le ?_ hle)
    cases cs with
    | nil => exact absurd rfl hnil
    | cons c rest =>
        by_cases hc : c = '/'
        · subst hc
          cases rest with
          | nil => exact absurd rfl hroot
          | cons d rest => exact absurd rfl (hne d rest)
        · have hdrop : (c :: rest).dropWhile (· != '/') = rest.dropWhile (· != '/') := by
            simp [hc]
          rw [hdrop, List.length_cons]
          exact Nat.lt_succ_of_le (length_dropWhile_le _ rest)

def ancestors (path : String) : List String :=
  match _h : parent? path with
  | none => [path]
  | some parent => path :: ancestors parent
termination_by path.toList.length
decreasing_by exact length_parent?_lt _h

/-- What stands between slashes, from the start of the path. -/
def splitParts (part : List Char) : List Char → List String
  | [] => [String.ofList part.reverse]
  | c :: cs =>
      if c = '/' then String.ofList part.reverse :: splitParts [] cs else splitParts (c :: part) cs

def parts (path : String) : List String :=
  splitParts [] path.toList

end FeatureTable.Path
