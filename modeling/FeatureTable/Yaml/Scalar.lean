import FeatureTable.Decimal.Read
import FeatureTable.Yaml.Error

namespace FeatureTable.Yaml

def isNull (text : String) : Bool :=
  ["null", "Null", "NULL", "~"].contains text

def readBool? (text : String) : Option Bool :=
  if ["true", "True", "TRUE"].contains text then some true
  else if ["false", "False", "FALSE"].contains text then some false
  else none

def digitValue? (radix : Nat) (c : Char) : Option Nat :=
  let value? :=
    if c.isDigit then some (c.toNat - '0'.toNat)
    else if 'a' ≤ c ∧ c ≤ 'f' then some (c.toNat - 'a'.toNat + 10)
    else if 'A' ≤ c ∧ c ≤ 'F' then some (c.toNat - 'A'.toNat + 10)
    else none
  value?.filter (· < radix)

def readRadix? (radix : Nat) (digits : List Char) : Option Nat :=
  if digits.isEmpty then none
  else digits.foldlM (fun value c => (digitValue? radix c).map (radix * value + ·)) 0

/-- Digits after a leading zero make a text and no number. -/
def hasLeadingZero (cs : List Char) : Bool :=
  match (Decimal.splitSign cs).2 with
  | '0' :: c :: rest => (c :: rest).all Char.isDigit
  | _ => false

/-- A whole number without a sign, in one of four notations. -/
def readWhole? : List Char → Option Nat
  | '0' :: 'x' :: digits => readRadix? 16 digits
  | '0' :: 'o' :: digits => readRadix? 8 digits
  | '0' :: 'b' :: digits => readRadix? 2 digits
  | digits => readRadix? 10 digits

def readInt? (text : String) : Option Int :=
  let cs := text.toList
  if hasLeadingZero cs then none
  else
    let (negative, digits) := Decimal.splitSign cs
    (readWhole? digits).map fun n => if negative then -(n : Int) else n

/-- A whole number of 64 bits without a minus sign. -/
def readIndex? (text : String) : Option Nat :=
  if text.toList.head? == some '-' then none
  else ((readInt? text).map Int.toNat).filter (· < Nat.pow 2 64)

/-- A number that is too large to be finite is a text. -/
def readFloat? (text : String) : Option Float :=
  let cs := text.toList
  let unsigned := if cs.head? == some '+' then cs.tail else cs
  let infinities := [".inf", ".Inf", ".INF"]
  if cs.head? == some '+' && (unsigned.head? == some '+' || unsigned.head? == some '-') then none
  else if infinities.contains (String.ofList unsigned) then some (1 / 0)
  else if cs.head? == some '-' && infinities.contains (String.ofList cs.tail) then some (-(1 / 0))
  else if [".nan", ".NaN", ".NAN"].contains text then some (0 / 0)
  else (Decimal.readChars? unsigned).filter Float.isFinite

/-- Whole numbers of up to 128 bits are numbers; those of more than 64 bits cannot be held. -/
inductive IntReading where
  | held (value : Int)
  | tooLarge
  | none

def readHeldInt (text : String) : IntReading :=
  match readInt? text with
  | some n =>
      if -(Nat.pow 2 63) ≤ n ∧ n < Nat.pow 2 64 then .held n
      else if -(Nat.pow 2 127) ≤ n ∧ n < Nat.pow 2 128 then .tooLarge
      else .none
  | none => .none

end FeatureTable.Yaml
