import PhpLint.Keyed
import PhpLint.Rules.Inspection

/-! Several inspections side by side, each under a name of its own. -/

namespace PhpLint

abbrev Workbench := Keyed Inspection

namespace Workbench

inductive Task where
  | start (name : String) (inspection : Inspection)
  | check (name : String) (forest : Forest) (filename : String)
  | report (name : String) (node : Option Node) (filename message : String)
      (severity : Option Severity) (fixable : Option Bool)
  | read (name : String)

inductive TaskError where
  | report (error : ReportError)
  | nesting (error : NestingError)
  deriving DecidableEq, Repr

def TaskError.message : TaskError → String
  | .report error => error.message
  | .nesting error => error.message

/-- Does one task. A name without an inspection has nothing to be done for it. A check that fails
keeps what it has found; a report that fails changes nothing. -/
def perform (bench : Workbench) : Task → Workbench × Option TaskError
  | .start name inspection => (bench.put name inspection, none)
  | .check name forest filename =>
    match bench.get? name with
    | none => (bench, none)
    | some inspection =>
      let (inspection, failure) := inspection.check forest filename
      (bench.put name inspection, failure.map .nesting)
  | .report name node filename message severity fixable =>
    match bench.get? name with
    | none => (bench, none)
    | some inspection =>
      match inspection.report node filename message severity fixable with
      | .error error => (bench, some (.report error))
      | .ok (_, inspection) => (bench.put name inspection, none)
  | .read _ => (bench, none)

def run (bench : Workbench) : List Task → Workbench
  | [] => bench
  | task :: rest => run (bench.perform task).1 rest

end Workbench

end PhpLint
