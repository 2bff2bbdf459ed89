import PhpLint.Calls.Unknown
import PhpLint.Console.Switchboard
import PhpLint.Keyed

/-! Sessions at the console: switching of backends, printers that were opened, and everything that
writes. -/

namespace PhpLint.Console

structure Session where
  board : Switchboard
  printers : Keyed Printer

inductive Action where
  | set (id : String)
  | reset
  | addHandler (name : String)
  | warn (text : String)
  | debug (text : String)
  | echo (markup : String)
  | print (config : Config) (indent : Int) (expand : Option Bool) (forest : Forest)
  | analyze (config : Config) (forest : Forest)
  | openPrinter (name : String) (layout : Outline.Layout)
  | usePrinter (name : String) (expand : Bool) (forest : Forest)

/-- What an action leads to: what was written, also when it had to stop early. -/
structure Outcome where
  session : Session
  writes : List Write
  failure : Option Outline.PrintError

namespace Session

def initial : Session := ⟨.initial, .empty⟩

def writing (session : Session) (writes : List Write) : Outcome := ⟨session, writes, none⟩

def onBoard (session : Session) (board : Switchboard) : Outcome :=
  ⟨{ session with board := board }, [], none⟩

def printing (session : Session) (sink : String) (printed : Outline.Printed) : Outcome :=
  ⟨session, [⟨sink, printed.text⟩], printed.failure⟩

section Actions

variable (limits : Limits) (rendering : Rendering)

/-- Does what an action says. Printing and the analysis of calls name no destination. -/
def perform (session : Session) : Action → Outcome
  | .set id => session.onBoard (session.board.set id)
  | .reset => session.onBoard session.board.reset
  | .addHandler name => session.onBoard (session.board.addHandler name)
  | .warn text => session.writing (session.board.log rendering (.warning text))
  | .debug text => session.writing (session.board.log rendering (.debug text))
  | .echo markup => session.writing [session.board.echo rendering markup]
  | .print config indent expand forest =>
    session.printing session.board.sink (config.outline limits indent expand forest)
  | .analyze config forest =>
    let report := Calls.analyze forest config
    session.writing (report.lines.map session.board.write ++
      report.log.flatMap (session.board.log rendering))
  | .openPrinter name layout =>
    let printers := session.printers.put name (session.board.printer layout)
    ⟨{ session with printers := printers }, [], none⟩
  | .usePrinter name expand forest =>
    match session.printers.get? name with
    | none => session.writing []
    | some printer =>
      session.printing printer.sink (Outline.print limits printer.layout expand forest)

def run (session : Session) : List Action → Session
  | [] => session
  | action :: rest => run (session.perform limits rendering action).session rest

end Actions

end Session

end PhpLint.Console
