import PhpLint.Outline.Printer
import PhpLint.Settings.Value
import PhpLint.Text.Case

/-! The configuration, and its validation from raw values. -/

namespace PhpLint

open Settings (Value Table)

structure Config where
  builtinFunctions : List String
  caseSensitiveCalls : Bool
  indentUnit : String
  expandTree : Bool
  deriving DecidableEq, Repr

def Config.default : Config := ⟨[], true, "  ", false⟩

namespace Settings

inductive Field where
  | builtinFunctions
  | caseSensitiveCalls
  | indentUnit
  | expandTree
  deriving DecidableEq, Repr

def Field.key : Field → String
  | .builtinFunctions => "builtin_functions"
  | .caseSensitiveCalls => "case_sensitive_calls"
  | .indentUnit => "indent_unit"
  | .expandTree => "expand_tree"

/-- What is wrong with a value. No boolean is read from a value of the first sort; from one of the
second it could be, but is not. -/
inductive Fault where
  | notBoolean
  | unreadableBoolean
  | notText
  | notList
  | blankName
  deriving DecidableEq, Repr

namespace Fault

def code : Fault → String
  | .notBoolean => "bool_type"
  | .unreadableBoolean => "bool_parsing"
  | .notText => "string_type"
  | .notList => "list_type"
  | .blankName => "value_error"

def message : Fault → String
  | .notBoolean => "Input should be a valid boolean"
  | .unreadableBoolean => "Input should be a valid boolean, unable to interpret input"
  | .notText => "Input should be a valid string"
  | .notList => "Input should be a valid list"
  | .blankName => "Value error, Builtin function names must not be empty."

end Fault

structure FieldError where
  field : Field
  index : Option Nat
  fault : Fault
  deriving DecidableEq, Repr

def booleanOfInt (value : Int) : Except Fault Bool :=
  if value = 0 then .ok false else if value = 1 then .ok true else .error .unreadableBoolean

def booleanOfText (text : String) : Except Fault Bool :=
  let word := String.ofList (text.toList.map Char.toLower)
  if word ∈ ["0", "off", "f", "false", "n", "no"] then .ok false
  else if word ∈ ["1", "on", "t", "true", "y", "yes"] then .ok true
  else .error .unreadableBoolean

/-- Reads a boolean. Numbers are looked at only within 64 bits; the least of these is read from an
integer, not from a float. -/
def readBoolean : Value → Except Fault Bool
  | .boolean value => .ok value
  | .integer value =>
    if isWord value then booleanOfInt value else .error .notBoolean
  | .float value =>
    match value.toInt? with
    | none => .error .notBoolean
    | some whole =>
      if -wordBound < whole ∧ whole < wordBound then booleanOfInt whole else .error .notBoolean
  | .text value => booleanOfText value
  | _ => .error .notBoolean

def readText : Value → Except Fault String
  | .text value => .ok value
  | _ => .error .notText

/-- The texts of a list, or the places of the items that are none. -/
def readTexts : Nat → List Value → Except (List Nat) (List String)
  | _, [] => .ok []
  | index, item :: rest =>
    match readText item, readTexts (index + 1) rest with
    | .ok text, .ok texts => .ok (text :: texts)
    | .ok _, .error places => .error places
    | .error _, .ok _ => .error [index]
    | .error _, .error places => .error (index :: places)

def readNames (value : Value) : Except (List FieldError) (List String) :=
  match value with
  | .list items =>
    match readTexts 0 items with
    | .error places => .error (places.map fun index => ⟨.builtinFunctions, some index, .notText⟩)
    | .ok texts =>
      let names := texts.map Text.strip
      if "" ∈ names then .error [⟨.builtinFunctions, none, .blankName⟩] else .ok names
  | _ => .error [⟨.builtinFunctions, none, .notList⟩]

def single {α : Type} (field : Field) (read : Value → Except Fault α) (value : Value) :
    Except (List FieldError) α :=
  match read value with
  | .ok result => .ok result
  | .error fault => .error [⟨field, none, fault⟩]

def fieldOr {α : Type} (table : Table) (field : Field) (absent : α)
    (read : Value → Except (List FieldError) α) : Except (List FieldError) α :=
  match table.lookup field.key with
  | none => .ok absent
  | some value => read value

def errorsOf {α : Type} : Except (List FieldError) α → List FieldError
  | .ok _ => []
  | .error errors => errors

end Settings

open Settings

/-- Validates raw values. Each field is read on its own, and the errors of all are listed in the
order of the fields. Keys that name no field are passed over. -/
def Config.validate (table : Table) : Except (List FieldError) Config :=
  let names := fieldOr table .builtinFunctions Config.default.builtinFunctions readNames
  let sensitive := fieldOr table .caseSensitiveCalls Config.default.caseSensitiveCalls
    (single .caseSensitiveCalls readBoolean)
  let unit := fieldOr table .indentUnit Config.default.indentUnit (single .indentUnit readText)
  let expand := fieldOr table .expandTree Config.default.expandTree
    (single .expandTree readBoolean)
  match names, sensitive, unit, expand with
  | .ok names, .ok sensitive, .ok unit, .ok expand => .ok ⟨names, sensitive, unit, expand⟩
  | names, sensitive, unit, expand =>
    .error (errorsOf names ++ errorsOf sensitive ++ errorsOf unit ++ errorsOf expand)

def Settings.errorSummary (errors : List FieldError) : String :=
  toString errors.length ++
    (if errors.length = 1 then " validation error" else " validation errors") ++
    " for AnalysisConfig"

def Config.layout (config : Config) (indent : Int) : Outline.Layout := ⟨indent, config.indentUnit⟩

/-- The outline under a configuration, in the form asked for or else the one it names. -/
def Config.outline (limits : Limits) (config : Config) (indent : Int) (expand : Option Bool)
    (forest : Forest) : Outline.Printed :=
  Outline.print limits (config.layout indent) (expand.getD config.expandTree) forest

end PhpLint
