import FeatureTable.Config.Error
import FeatureTable.Expression.Evaluate

namespace FeatureTable

inductive DataFault where
  | cloudRange (cloud : String) (left right lines : Nat)
  | longLine (line values columns : Nat)
  | lineValue (line : Nat) (token : String)
  | cell (row : Nat) (column text : String)
deriving Repr, DecidableEq

def DataFault.message : DataFault → String
  | cloudRange cloud left right lines =>
      s!"{cloud} cloud range {left}..{right} is outside the {lines} lines of the raw file"
  | longLine line values columns =>
      s!"line {line} has {values} values, expected at most {columns}"
  | lineValue line token => s!"line {line}: cannot parse '{token}' as a number"
  | cell row column text => s!"row {row}, column '{column}': cannot parse '{text}' as a number"

inductive CsvFault where
  | file
  | notText
  | unequalLengths (expected actual : Nat)
deriving Repr, DecidableEq

def CsvFault.message : CsvFault → String
  | file => "file cannot be opened"
  | notText => "record is not valid UTF-8"
  | unequalLengths expected actual =>
      s!"found record with {actual} fields, but the previous record has {expected} fields"

inductive Failure where
  | evaluation (error : EvalError)
  | table (error : TableError)
  | config (error : ConfigError)
  | data (fault : DataFault)
  | file
  | csv (fault : CsvFault)
deriving Repr, DecidableEq

namespace Failure

def message : Failure → String
  | evaluation error => error.message
  | table error => error.message
  | config error => error.message
  | data fault => s!"Invalid data: {fault.message}"
  | file => "I/O error: file cannot be read or written"
  | csv fault => s!"CSV error: {fault.message}"

/-- A column that a table lacks is reported like one that an expression lacks. -/
def ofTableError : TableError → Failure
  | .columnNotFound name => evaluation (.missingColumn name)
  | error => table error

end Failure

end FeatureTable
