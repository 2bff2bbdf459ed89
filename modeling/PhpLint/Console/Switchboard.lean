import PhpLint.Log
import PhpLint.Outline.Printer

/-! The switchboard between output backends. Text that names no destination goes to the current
backend, and log records are rendered there. -/

namespace PhpLint.Console

/-- How a console shows a line of markup, and how it shows a log record. -/
structure Rendering where
  line : String → String
  record : LogRecord → String

/-- A standard backend is opened anew by each reset. -/
inductive Backend where
  | standard (serial : Nat)
  | named (id : String)
  deriving DecidableEq, Repr

namespace Backend

def sink : Backend → String
  | .standard _ => "stdout"
  | .named id => id

def isNamed : Backend → Bool
  | .standard _ => false
  | .named _ => true

end Backend

/-- A log handler renders records to a backend, or does something of its own with them. -/
inductive Handler where
  | rendering (backend : Backend)
  | other (name : String)
  deriving DecidableEq, Repr

def Handler.isRendering : Handler → Bool
  | .rendering _ => true
  | .other _ => false

structure Write where
  sink : String
  text : String
  deriving DecidableEq, Repr

structure Switchboard where
  backend : Backend
  resets : Nat
  handlers : List Handler
  threshold : LogLevel
  deriving DecidableEq, Repr

namespace Switchboard

/-- Makes a backend current. Rendering of log records moves with it; other handlers stay. -/
def switch (board : Switchboard) (backend : Backend) : Switchboard :=
  { board with
    backend := backend
    handlers := board.handlers.filter (!·.isRendering) ++ [.rendering backend]
    threshold := .info }

def initial : Switchboard := switch ⟨.standard 0, 0, [], .warning⟩ (.standard 0)

def set (board : Switchboard) (id : String) : Switchboard := board.switch (.named id)

def reset (board : Switchboard) : Switchboard :=
  { board with resets := board.resets + 1 }.switch (.standard (board.resets + 1))

def addHandler (board : Switchboard) (name : String) : Switchboard :=
  if .other name ∈ board.handlers then board
  else { board with handlers := board.handlers ++ [.other name] }

def sink (board : Switchboard) : String := board.backend.sink

def write (board : Switchboard) (text : String) : Write := ⟨board.sink, text⟩

def echo (rendering : Rendering) (board : Switchboard) (markup : String) : Write :=
  board.write (rendering.line markup)

/-- Renders a record that reaches the threshold, once by each rendering handler. -/
def log (rendering : Rendering) (board : Switchboard) (record : LogRecord) : List Write :=
  if record.level.rank < board.threshold.rank then []
  else
    board.handlers.filterMap fun
      | .rendering backend => some ⟨backend.sink, rendering.record record⟩
      | .other _ => none

end Switchboard

/-- A printer keeps the sink that was current when it was made. -/
structure Printer where
  sink : String
  layout : Outline.Layout
  deriving DecidableEq, Repr

def Switchboard.printer (board : Switchboard) (layout : Outline.Layout) : Printer :=
  ⟨board.sink, layout⟩

end PhpLint.Console
