import PhpLint.Number.Binary64

/-! Raw settings values, as data files and callers give them. -/

namespace PhpLint.Settings

/-- The sorts of dates and times. Nothing depends on which moment a value names. -/
inductive Moment where
  | date
  | time
  | dateTime
  deriving DecidableEq, Repr

inductive Value where
  | null
  | boolean (value : Bool)
  | integer (value : Int)
  | float (value : Binary64)
  | text (value : String)
  | moment (sort : Moment)
  | list (items : List Value)
  | table (entries : List (String × Value))
  deriving Inhabited

/-- Entries by key; the first entry of a key counts. -/
abbrev Table := List (String × Value)

namespace Value

def isNull : Value → Bool
  | .null => true
  | _ => false

def typeName : Value → String
  | .null => "NoneType"
  | .boolean _ => "bool"
  | .integer _ => "int"
  | .float _ => "float"
  | .text _ => "str"
  | .moment .date => "datetime.date"
  | .moment .time => "datetime.time"
  | .moment .dateTime => "datetime.datetime"
  | .list _ => "list"
  | .table _ => "dict"

end Value

end PhpLint.Settings
