import PhpLint.Outline.Entry
import PhpLint.Outline.Indentation
import PhpLint.Tree.Description

/-! Printed outlines of a forest: flat, with one line for each root, or expanded with all below.

The entries of an outline are found first, whatever their texts may be. They are written in a second
step, up to the first one that has no description or cannot be indented. -/

namespace PhpLint.Outline

def expandStack : List Entry → List Entry
  | [] => []
  | ⟨level, .label text⟩ :: rest => ⟨level, .label text⟩ :: expandStack rest
  | ⟨level, .node node⟩ :: rest => ⟨level, .node node⟩ :: expandStack (sections level node ++ rest)
termination_by stack => stackSize stack
decreasing_by
  · simp [Entry.size]
  · have := stackSize_sections_lt level node
    simp [Entry.size]
    omega

def treeEntries (indent : Int) (forest : Forest) : List Entry :=
  expandStack (nodesAt indent forest)

def Item.text (limits : Limits) : Item → Except TokenError String
  | .label text => .ok text
  | .node shown => shown.description limits

inductive PrintError where
  | description (error : TokenError)
  | indentation (error : IndentError)
  deriving DecidableEq, Repr

def PrintError.message : PrintError → String
  | .description error => error.message
  | .indentation error => error.message

/-- The line of an entry. What the entry says is settled before it is indented. -/
def Entry.line (limits : Limits) (unit : String) (entry : Entry) : Except PrintError String :=
  match entry.item.text limits with
  | .error error => .error (.description error)
  | .ok text =>
    match indentation limits unit entry.level with
    | .error error => .error (.indentation error)
    | .ok indent => .ok (indent ++ text ++ "\n")

/-- The lines written, and why writing stopped early if it did. -/
structure Printed where
  lines : List String
  failure : Option PrintError
  deriving DecidableEq, Repr

namespace Printed

def text (printed : Printed) : String := String.join printed.lines

def after (first : String) (printed : Printed) : Printed :=
  { printed with lines := first :: printed.lines }

end Printed

section Printing

variable (limits : Limits)

def write (unit : String) : List Entry → Printed
  | [] => ⟨[], none⟩
  | entry :: rest =>
    match entry.line limits unit with
    | .error error => ⟨[], some error⟩
    | .ok line => (write unit rest).after line

def printTree (layout : Layout) (forest : Forest) : Printed :=
  write limits layout.unit (treeEntries layout.indent forest)

/-- The flat outline of a forest: one line for each root. -/
def printNodes (layout : Layout) (forest : Forest) : Printed :=
  write limits layout.unit (nodesAt layout.indent forest)

def print (layout : Layout) (expand : Bool) (forest : Forest) : Printed :=
  if expand then printTree limits layout forest else printNodes limits layout forest

end Printing

end PhpLint.Outline
