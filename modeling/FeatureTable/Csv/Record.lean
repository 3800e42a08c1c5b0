import FeatureTable.Text.ByteOrderMark

namespace FeatureTable.Csv

/-!
A file is a sequence of records, a record a sequence of fields of bytes.  Commas separate fields and
line breaks of any kind end records; empty lines are no records.  A field that starts with a quote
goes up to the next single quote and may hold all of these; two quotes in it stand for one.
-/

abbrev Field := List UInt8

def comma : UInt8 := 44

def quote : UInt8 := 34

def lineFeed : UInt8 := 10

def carriageReturn : UInt8 := 13

def isLineBreak (b : UInt8) : Bool :=
  b == lineFeed || b == carriageReturn

/-- Where the reader stands: before a record, at the start of a later field, in a field without
quotes, in a quoted one, or behind a quote in a quoted one. -/
inductive Place where
  | recordStart
  | fieldStart
  | bare
  | quoted
  | behindQuote

/-- The fields of the current record and the current field are held last first. -/
def recordsFrom (place : Place) (fields : List Field) (field : Field) :
    List UInt8 → List (List Field)
  | [] =>
      match place with
      | .recordStart => []
      | _ => [(field.reverse :: fields).reverse]
  | b :: rest =>
      match place with
      | .quoted =>
          if b == quote then recordsFrom .behindQuote fields field rest
          else recordsFrom .quoted fields (b :: field) rest
      | place =>
          let opens :=
            match place with
            | .recordStart => true
            | .fieldStart => true
            | _ => false
          let doubles :=
            match place with
            | .behindQuote => true
            | _ => false
          let skips :=
            match place with
            | .recordStart => true
            | _ => false
          if b == quote && opens then recordsFrom .quoted fields field rest
          else if b == quote && doubles then recordsFrom .quoted fields (b :: field) rest
          else if b == comma then recordsFrom .fieldStart (field.reverse :: fields) [] rest
          else if isLineBreak b then
            if skips then recordsFrom .recordStart [] [] rest
            else (field.reverse :: fields).reverse :: recordsFrom .recordStart [] [] rest
          else recordsFrom .bare fields (b :: field) rest

def records (bytes : List UInt8) : List (List Field) :=
  recordsFrom .recordStart [] [] (Text.dropByteOrderMark bytes)

def fieldText? (field : Field) : Option String :=
  String.fromUTF8? ⟨field.toArray⟩

def recordTexts? (record : List Field) : Option (List String) :=
  record.mapM fieldText?

def needsQuotes (c : Char) : Bool :=
  c == ',' || c == '"' || c == '\n' || c == '\r'

def doubleQuotes : List Char → List Char
  | [] => []
  | c :: cs => if c = '"' then '"' :: '"' :: doubleQuotes cs else c :: doubleQuotes cs

def writeField (text : String) : List Char :=
  if text.toList.any needsQuotes then '"' :: doubleQuotes text.toList ++ ['"'] else text.toList

def writeFields : List String → List Char
  | [] => []
  | [text] => writeField text
  | text :: rest => writeField text ++ ',' :: writeFields rest

/-- A record that would be an empty line is written as two quotes. -/
def writeRecord (record : List String) : List Char :=
  let line := writeFields record
  (if line.isEmpty then ['"', '"'] else line) ++ ['\n']

end FeatureTable.Csv
