/-! Issues that style rules report. -/

namespace PhpLint

inductive Severity where
  | error
  | warning
  deriving DecidableEq, Repr

namespace Severity

def name : Severity → String
  | .error => "ERROR"
  | .warning => "WARNING"

def ofName? (name : String) : Option Severity := [error, warning].find? (·.name = name)

end Severity

structure Issue where
  filename : String
  line : Int
  column : Int
  severity : Severity
  fixable : Bool
  message : String
  code : String
  deriving DecidableEq, Repr

def Issue.location (issue : Issue) : String :=
  issue.filename ++ ":" ++ toString issue.line ++ ":" ++ toString issue.column

end PhpLint
