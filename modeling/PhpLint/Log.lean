/-! Log records. -/

namespace PhpLint

inductive LogLevel where
  | debug
  | info
  | warning
  deriving DecidableEq, Repr

namespace LogLevel

def name : LogLevel → String
  | .debug => "DEBUG"
  | .info => "INFO"
  | .warning => "WARNING"

def rank : LogLevel → Nat
  | .debug => 10
  | .info => 20
  | .warning => 30

end LogLevel

/-- A record's text is markup. -/
structure LogRecord where
  level : LogLevel
  text : String
  deriving DecidableEq, Repr

namespace LogRecord

def debug (text : String) : LogRecord := ⟨.debug, text⟩

/-- Warnings open with a sign. -/
def warning (text : String) : LogRecord := ⟨.warning, "⚠️  " ++ text⟩

end LogRecord

end PhpLint
