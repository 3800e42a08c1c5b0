namespace FeatureTable.Yaml

/-- What the tag of a node asks for.  A tag is a sequence of bytes, since its escapes may spell any.
-/
inductive Tag where
  | bool
  | int
  | float
  | null
  /-- A tag of one's own stays on the value. -/
  | own (name : String)
  /-- Any other tag makes a scalar a text and leaves a collection as it is. -/
  | foreign
deriving Repr, DecidableEq

namespace Tag

/-- The mark that opens a tag is no part of its name, unless nothing else is. -/
def withoutMark : List UInt8 → List UInt8
  | [] => []
  | [b] => [b]
  | b :: name => if b = 0x21 then name else b :: name

def standardHandle : List UInt8 :=
  "tag:yaml.org,2002:".toUTF8.toList

def standardTags : List (String × Tag) :=
  [("bool", bool), ("int", int), ("float", float), ("null", null)]

def standard? (bytes : List UInt8) : Option Tag :=
  (standardTags.find? fun entry => standardHandle ++ entry.1.toUTF8.toList == bytes).map (·.2)

/-- A tag of one's own opens with a mark, which may be doubled.  One that is not UTF-8 says
nothing. -/
def ofBytes? (bytes : List UInt8) : Option Tag :=
  if bytes.head? == some 0x21 then
    (String.fromUTF8? ⟨(withoutMark (withoutMark bytes)).toArray⟩).map own
  else some ((standard? bytes).getD foreign)

end Tag

end FeatureTable.Yaml
