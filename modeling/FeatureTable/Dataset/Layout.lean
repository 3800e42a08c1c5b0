import FeatureTable.Yaml.Document

namespace FeatureTable

/-- The lines from `left` up to but not including `right`. -/
structure LineRange where
  left : Nat
  right : Nat
deriving Repr, DecidableEq

structure DatasetLayout where
  columns : List String
  first : LineRange
  second : LineRange
deriving Repr, DecidableEq

namespace DatasetLayout

open Yaml Yaml.Document

def readRange (d : Document) (node : Node Nat) : DocumentReader LineRange := do
  let fields ← d.readFields ["left", "right"] node
  let left ← d.readIndex (← require fields "left")
  return { left, right := ← d.readIndex (← require fields "right") }

def read (d : Document) (node : Node Nat) : DocumentReader DatasetLayout := do
  let fields ← d.readFields ["data", "data_prep"] node
  let data ← d.readFields ["columns"] (← require fields "data")
  let columns ← d.readTexts (← require data "columns")
  let clouds ← d.readFields ["first_cloud", "second_cloud"] (← require fields "data_prep")
  let first ← readRange d (← require clouds "first_cloud")
  return { columns, first, second := ← readRange d (← require clouds "second_cloud") }

def ofText (text : String) : Except Yaml.Error DatasetLayout :=
  Document.read text fun d => read d d.root

end DatasetLayout

end FeatureTable
