import FeatureTable.Yaml.Node.Basic

namespace FeatureTable.Yaml

/-!
Anchors are numbered by how many different names were used before them, and an alias has the number
of the last anchor of its name.  A name that is used again keeps its place in the count, so two
anchors may share a number; it then belongs to the later one.
-/

abbrev AnchorNumbers := List (String × Nat)

def AnchorNumbers.define (numbers : AnchorNumbers) (name : String) : AnchorNumbers :=
  let number := numbers.length
  if numbers.any (·.1 == name) then
    numbers.map fun entry => if entry.1 == name then (name, number) else entry
  else numbers ++ [(name, number)]

abbrev Linker := StateT AnchorNumbers (Except Error)

def linkAnchor : Option String → Linker (Option Nat)
  | none => return none
  | some name => do
      let number := (← get).length
      modify fun numbers => numbers.define name
      return some number

mutual

def Node.link : Node String → Linker (Node Nat)
  | .alias name => do
      match (← get).lookup name with
      | some number => return .alias number
      | none => throw .unknownAnchor
  | .scalar anchor tag text style => return .scalar (← linkAnchor anchor) tag text style
  | .sequence anchor tag items => do
      let anchor ← linkAnchor anchor
      return .sequence anchor tag (← linkItems items)
  | .mapping anchor tag entries => do
      let anchor ← linkAnchor anchor
      return .mapping anchor tag (← linkEntries entries)

def linkItems : List (Node String) → Linker (List (Node Nat))
  | [] => return []
  | item :: items => return (← item.link) :: (← linkItems items)

def linkEntries : List (Node String × Node String) → Linker (List (Node Nat × Node Nat))
  | [] => return []
  | (key, value) :: entries => do
      let key ← key.link
      let value ← value.link
      return (key, value) :: (← linkEntries entries)

end

mutual

def Node.collect (found : List (Nat × Node Nat)) : Node Nat → List (Nat × Node Nat)
  | .alias _ => found
  | .scalar anchor tag text style =>
      (anchor.map fun number => (number, Node.scalar anchor tag text style)).toList ++ found
  | .sequence anchor tag items =>
      collectItems
        ((anchor.map fun number => (number, Node.sequence anchor tag items)).toList ++ found) items
  | .mapping anchor tag entries =>
      collectEntries
        ((anchor.map fun number => (number, Node.mapping anchor tag entries)).toList ++ found)
        entries

def collectItems (found : List (Nat × Node Nat)) : List (Node Nat) → List (Nat × Node Nat)
  | [] => found
  | item :: items => collectItems (item.collect found) items

def collectEntries (found : List (Nat × Node Nat)) :
    List (Node Nat × Node Nat) → List (Nat × Node Nat)
  | [] => found
  | (key, value) :: entries => collectEntries (value.collect (key.collect found)) entries

end

mutual

def Node.size : Node α → Nat
  | .alias _ => 1
  | .scalar _ _ _ _ => 1
  | .sequence _ _ items => 2 + itemsSize items
  | .mapping _ _ entries => 2 + entriesSize entries

def itemsSize : List (Node α) → Nat
  | [] => 0
  | item :: items => item.size + itemsSize items

def entriesSize : List (Node α × Node α) → Nat
  | [] => 0
  | (key, value) :: entries => key.size + value.size + entriesSize entries

end

/-- A document whose aliases are numbers of nodes. -/
structure Document where
  root : Node Nat
  targets : List (Nat × Node Nat)
  /-- How often aliases may be followed. -/
  aliasLimit : Nat

def Document.ofNode (node : Node String) : Except Error Document := do
  let (root, _) ← node.link.run []
  return { root, targets := root.collect [], aliasLimit := 100 * root.size }

/-- A reader of documents counts the aliases that it follows. -/
abbrev DocumentReader := StateT Nat (Except Error)

/-- The node that stands for an alias; other nodes stand for themselves. -/
def Document.follow (d : Document) : Node Nat → DocumentReader (Node Nat)
  | .alias number => do
      modify (· + 1)
      if d.aliasLimit < (← get) then throw .tooManyAliases
      match d.targets.lookup number with
      | some node => return node
      | none => throw .unknownAnchor
  | node => return node

end FeatureTable.Yaml
