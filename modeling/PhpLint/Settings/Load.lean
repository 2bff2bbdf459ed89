import PhpLint.Log
import PhpLint.Settings.Config
import PhpLint.Text.Markup
import PhpLint.Toml.Text

/-! Loading the configuration from the nearest settings file. -/

namespace PhpLint.Settings

def fileName : String := "pyproject.toml"

structure Directory where
  path : String
  settings : Option ByteArray

def Directory.filePath (directory : Directory) : String := directory.path ++ "/" ++ fileName

/-- How settings files are read: the table that a text describes, and what is said of a text that is
malformed. -/
structure Reader where
  read : String → Except Toml.ReadError Table
  complaint : String → String

/-- Why a configuration cannot be loaded. Reading the settings file stops where it is not in the
encoding of text files, at an integer of more digits than are read, and at values that stand too deeply
in one another; the path to search from may hold a null character. -/
inductive LoadError where
  | undecodable
  | oversizedInteger (most digits : Nat)
  | nestedTooDeeply
  | nullInPath
  | toolNotTable (found : Value)
  | settingsNotTable (found : Value)
  | invalid (errors : List FieldError)

def LoadError.message? : LoadError → Option String
  | .undecodable => none
  | .oversizedInteger most digits =>
    some ("Exceeds the limit (" ++ toString most ++
      " digits) for integer string conversion: value has " ++ toString digits ++
      " digits; use sys.set_int_max_str_digits() to increase the limit")
  | .nestedTooDeeply => some NestingError.call.message
  | .nullInPath => some "embedded null byte"
  | .toolNotTable found => some ("'" ++ found.typeName ++ "' object has no attribute 'get'")
  | .settingsNotTable found => some ("'" ++ found.typeName ++ "' object is not a mapping")
  | .invalid errors => some ("Configuration validation failed: " ++ errorSummary errors)

structure Loaded where
  log : List LogRecord
  result : Except LoadError Config

def entryOr (table : Table) (key : String) : Value := (table.lookup key).getD (.table [])

def unreadableRecord (directory : Directory) (complaint : String) : LogRecord :=
  .warning ("Ignoring unreadable [path]" ++ Text.escapeMarkup directory.filePath ++ "[/path]: " ++
    Text.escapeMarkup complaint)

def loadedRecord (directory : Directory) : LogRecord :=
  .debug ("Loaded phpsniff settings from [path]" ++ Text.escapeMarkup directory.path ++ "[/path]")

section Loading

variable (reader : Reader)

/-- The settings table that the nearest settings file holds, with what is logged about it. Without a
file, or with one that is not well-formed, there is an empty table. -/
def nearestTable : List Directory → List LogRecord × Except LoadError Table
  | [] => ([], .ok [])
  | directory :: parents =>
    match directory.settings with
    | none => nearestTable parents
    | some bytes =>
      match String.fromUTF8? bytes with
      | none => ([], .error .undecodable)
      | some text =>
        match reader.read text with
        | .error .malformed => ([unreadableRecord directory (reader.complaint text)], .ok [])
        | .error (.oversizedInteger most digits) => ([], .error (.oversizedInteger most digits))
        | .error .nestedTooDeeply => ([], .error .nestedTooDeeply)
        | .ok document =>
          match entryOr document "tool" with
          | .table tool =>
            match entryOr tool "phpsniff" with
            | .table settings => ([loadedRecord directory], .ok settings)
            | other => ([loadedRecord directory], .error (.settingsNotTable other))
          | other => ([], .error (.toolNotTable other))

def merge (overrides table : Table) : Table := overrides.filter (!·.2.isNull) ++ table

def load (chain : List Directory) (overrides : Table) : Loaded :=
  let (log, found) := nearestTable reader chain
  match found with
  | .error error => ⟨log, .error error⟩
  | .ok table =>
    match Config.validate (merge overrides table) with
    | .error errors => ⟨log, .error (.invalid errors)⟩
    | .ok config => ⟨log, .ok config⟩

end Loading

end PhpLint.Settings
