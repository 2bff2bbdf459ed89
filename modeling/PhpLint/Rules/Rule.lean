import PhpLint.Limits
import PhpLint.Rules.Issue
import PhpLint.Tree.Node

/-! Style rules. A rule looks at one node at a time, when it is entered and when it is left. -/

namespace PhpLint

/-- Something a rule objects to. Severity and fixability are given where they are not those of the
rule. -/
structure Finding where
  pos : Position
  filename : String
  message : String
  severity : Option Severity
  fixable : Option Bool
  deriving DecidableEq, Repr

def Finding.about (node : Node) (filename message : String) : Finding :=
  ⟨node.pos, filename, message, none, none⟩

structure Look where
  findings : List Finding
  failure : Option NestingError
  deriving DecidableEq, Repr

namespace Look

def full (findings : List Finding) : Look := ⟨findings, none⟩

def after (first : Finding) (look : Look) : Look := { look with findings := first :: look.findings }

end Look

/-- A rule with the defaults of the issues it reports. Without a set of kinds to descend into it
looks at the whole tree. What it finds depends on the name of the file and on the node. -/
structure Rule where
  title : String
  code : String
  severity : Severity
  fixable : Bool
  descendInto : Option (List Kind)
  onEnter : (filename : String) → Node → Look
  onLeave : (filename : String) → Node → List Finding

namespace Rule

def label (rule : Rule) : String := if rule.code = "" then rule.title else rule.code

def issue (rule : Rule) (finding : Finding) : Issue where
  filename := finding.filename
  line := finding.pos.line
  column := finding.pos.column
  severity := finding.severity.getD rule.severity
  fixable := finding.fixable.getD rule.fixable
  message := finding.message
  code := rule.code

/-- A rule that reports the nodes of some kinds on entering, and those of others on leaving. -/
def reporting (title code : String) (severity : Severity) (fixable : Bool)
    (descendInto : Option (List Kind)) (entered left : List Kind) : Rule where
  title := title
  code := code
  severity := severity
  fixable := fixable
  descendInto := descendInto
  onEnter filename node :=
    .full (if node.kind ∈ entered then [.about node filename ("visit " ++ node.kind.name)] else [])
  onLeave filename node :=
    if node.kind ∈ left then [.about node filename ("leave " ++ node.kind.name)] else []

end Rule

end PhpLint
