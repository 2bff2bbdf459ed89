import PhpLint.Log
import PhpLint.Rules.Rule
import PhpLint.Text.Markup
import PhpLint.Tree.Traversal

/-! Inspections: a rule at work, with the issues it has reported so far. -/

namespace PhpLint

structure Inspection where
  rule : Rule
  descendInto : Option (List Kind)
  filename : String
  issues : Array Issue

inductive ReportError where
  | noNode
  deriving DecidableEq, Repr

def ReportError.message : ReportError → String
  | .noNode => "'NoneType' object has no attribute 'pos'"

namespace Inspection

def ofRule (rule : Rule) : Inspection := ⟨rule, rule.descendInto, "", #[]⟩

def withDescent (rule : Rule) (descendInto : Option (List Kind)) : Inspection :=
  ⟨rule, descendInto, "", #[]⟩

def descends (inspection : Inspection) (node : Node) : Bool :=
  match inspection.descendInto with
  | none => true
  | some kinds => kinds.contains node.kind

structure Progress where
  issues : Array Issue
  failure : Option NestingError

/-- The visitor that collects the rule's issues for a file. Once the rule has stopped, it passes
over everything else. -/
def visitor (inspection : Inspection) (filename : String) : Visitor Progress where
  enter node progress :=
    if progress.failure.isSome then (false, progress)
    else
      let look := inspection.rule.onEnter filename node
      (inspection.descends node, ⟨progress.issues ++ found look.findings, look.failure⟩)
  leave node progress :=
    if progress.failure.isSome then progress
    else { progress with issues := progress.issues ++ found (inspection.rule.onLeave filename node) }
where
  found (findings : List Finding) : List Issue := findings.map inspection.rule.issue

/-- Looks at a file; earlier issues stay, and so do those found before the rule stopped. -/
def check (inspection : Inspection) (forest : Forest) (filename : String) :
    Inspection × Option NestingError :=
  let progress := (inspection.visitor filename).traverse forest ⟨inspection.issues, none⟩
  ({ inspection with filename := filename, issues := progress.issues }, progress.failure)

/-- What is logged about a check that led from one state to another. -/
def checkRecord (before after : Inspection) : LogRecord :=
  .debug (after.rule.label ++ ": " ++ toString (after.issues.size - before.issues.size) ++
    " issue(s) in " ++ Text.escapeMarkup after.filename)

def report (inspection : Inspection) (node : Option Node) (filename message : String)
    (severity : Option Severity) (fixable : Option Bool) : Except ReportError (Issue × Inspection) :=
  match node with
  | none => .error .noNode
  | some node =>
    let issue := inspection.rule.issue ⟨node.pos, filename, message, severity, fixable⟩
    .ok (issue, { inspection with issues := inspection.issues.push issue })

end Inspection

end PhpLint
