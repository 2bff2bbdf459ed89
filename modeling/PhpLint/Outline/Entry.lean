import PhpLint.Tree.Children

/-! Entries of an outline: a node or the label of a section, at a level. -/

namespace PhpLint.Outline

inductive Item where
  | label (text : String)
  | node (node : Node)

structure Entry where
  level : Int
  item : Item

/-- Nodes of foreign kinds are left out of outlines, with all below them. -/
def shown (forest : Forest) : List Node := (forest.filterMap id).filter (·.kind.isKnown)

/-- Some nodes at one level. -/
def nodesAt (level : Int) (forest : Forest) : List Entry :=
  (shown forest).map fun node => ⟨level, .node node⟩

def labelAt (level : Int) (text : String) : Entry := ⟨level, .label (text ++ ":")⟩

/-- A label and, one level deeper, its nodes; nothing if there are none. -/
def labelled (level : Int) (text : String) (forest : Forest) : List Entry :=
  match nodesAt (level + 1) forest with
  | [] => []
  | entries => labelAt level text :: entries

/-- The entries below a node at a level. The sections of an `elseif` branch stand one level deeper
than those of the conditional it belongs to. -/
def sections (level : Int) (node : Node) : List Entry :=
  match node.shape with
  | .identifier _ | .variableRef _ | .stringLiteral _ | .integerLiteral _ | .floatLiteral _
  | .booleanLiteral _ | .nullLiteral | .comment _ | .property _ _ | .parameter _ _ _
  | .foreign _ _ _ => []
  | .interpolatedString parts => labelled (level + 1) "Parts" parts
  | .assignment left right | .binaryExpr left _ right =>
    labelled (level + 1) "Left" [left] ++ labelled (level + 1) "Right" [right]
  | .functionCall _ args | .methodCall _ _ args | .creation _ args =>
    labelled (level + 1) "Arguments" args
  | .array elements _ => labelled (level + 1) "Elements" elements
  | .arrayItem key value _ _ | .keyValue key value =>
    labelled (level + 1) "Key" [key] ++ labelled (level + 1) "Value" [value]
  | .arrayAccess base index =>
    labelled (level + 1) "Variable" [base] ++ labelled (level + 1) "Index" [index]
  | .functionDecl _ params body | .functionDef _ _ _ _ params body =>
    labelled (level + 1) "Parameters" params ++ labelled (level + 1) "Body" body
  | .returnStmt expr | .expressionStmt expr => labelled (level + 1) "Expression" [expr]
  | .ifStmt condition body elseIfs otherwise =>
    labelled (level + 1) "Condition" [condition] ++ labelled (level + 1) "Then" body ++
      elseIfs.flatMap elseIfEntries ++ otherwise.toList.flatMap elseEntries
  | .elseIf condition body | .whileStmt condition body =>
    labelled (level + 1) "Condition" [condition] ++ labelled (level + 1) "Body" body
  | .elseBranch body => labelled (level + 1) "Body" body
  | .classDecl _ _ _ properties methods =>
    labelled (level + 1) "Properties" properties ++ labelled (level + 1) "Methods" methods
where
  elseIfEntries (branch : ElseIf Node) : List Entry :=
    labelAt (level + 1) "ElseIf" :: labelled (level + 2) "Condition" [branch.condition] ++
      labelled (level + 2) "Body" branch.body
  elseEntries (branch : Else Node) : List Entry :=
    labelAt (level + 1) "Else" :: nodesAt (level + 2) branch.body

noncomputable def Entry.size : Entry → Nat
  | ⟨_, .label _⟩ => 1
  | ⟨_, .node node⟩ => sizeOf node

noncomputable def stackSize : List Entry → Nat
  | [] => 0
  | entry :: rest => entry.size + stackSize rest

@[simp]
theorem stackSize_nil : stackSize [] = 0 := rfl

@[simp]
theorem stackSize_cons (entry : Entry) (rest : List Entry) :
    stackSize (entry :: rest) = entry.size + stackSize rest := rfl

@[simp]
theorem stackSize_append (left right : List Entry) :
    stackSize (left ++ right) = stackSize left + stackSize right := by
  induction left with
  | nil => simp
  | cons entry rest ih => simp [ih, Nat.add_assoc]

theorem stackSize_nodesAt (level : Int) (forest : Forest) :
    stackSize (nodesAt level forest) + forest.length ≤ sizeOf forest := by
  induction forest with
  | nil => simp [nodesAt, shown]
  | cons slot rest ih =>
    cases slot with
    | none =>
      simp [nodesAt, shown] at *
      omega
    | some node =>
      by_cases known : node.kind.isKnown <;> simp [nodesAt, shown, known, Entry.size] at * <;> omega

theorem stackSize_labelled (level : Int) (text : String) (forest : Forest) :
    stackSize (labelled level text forest) ≤ sizeOf forest := by
  have bound := stackSize_nodesAt (level + 1) forest
  cases forest with
  | nil => simp [labelled, nodesAt, shown]
  | cons slot rest =>
    unfold labelled
    split
    · simp
    · simp [labelAt, Entry.size] at *
      omega

theorem stackSize_labelled_slot (level : Int) (text : String) (slot : Option Node) :
    stackSize (labelled level text [slot]) ≤ sizeOf slot := by
  cases slot with
  | none => simp [labelled, nodesAt, shown]
  | some node =>
    by_cases known : node.kind.isKnown <;>
      simp [labelled, nodesAt, shown, known, labelAt, Entry.size]

theorem stackSize_elseIfs (level : Int) (branches : List (ElseIf Node)) :
    stackSize (branches.flatMap (sections.elseIfEntries level)) ≤ sizeOf branches := by
  induction branches with
  | nil => simp
  | cons branch rest ih =>
    cases branch
    simp [sections.elseIfEntries, labelAt, Entry.size] at *
    grind [stackSize_labelled, stackSize_labelled_slot]

theorem stackSize_otherwise (level : Int) (branch : Option (Else Node)) :
    stackSize (branch.toList.flatMap (sections.elseEntries level)) ≤ sizeOf branch := by
  cases branch with
  | none => simp
  | some branch =>
    obtain ⟨pos, body⟩ := branch
    have := stackSize_nodesAt (level + 2) body
    simp [sections.elseEntries, labelAt, Entry.size]
    omega

theorem stackSize_sections_lt (level : Int) (node : Node) :
    stackSize (sections level node) < sizeOf node := by
  obtain ⟨pos, shape⟩ := node
  cases shape <;> simp [sections] <;>
    grind [stackSize_labelled, stackSize_labelled_slot, stackSize_elseIfs, stackSize_otherwise]

end PhpLint.Outline
