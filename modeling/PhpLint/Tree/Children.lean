import PhpLint.Tree.Node

/-! Children of a node in declaration order, and the size that makes recursion over them end. -/

namespace PhpLint

namespace Node

/-- The children in declaration order. A required slot or a list entry that stands empty is kept;
an optional slot that stands empty is left out. -/
def children (node : Node) : Forest :=
  match node.shape with
  | .identifier _ | .variableRef _ | .stringLiteral _ | .integerLiteral _ | .floatLiteral _
  | .booleanLiteral _ | .nullLiteral | .comment _ | .property _ _ => []
  | .interpolatedString parts => parts
  | .assignment left right | .binaryExpr left _ right => [left, right]
  | .functionCall _ args | .creation _ args => args
  | .methodCall receiver _ args => receiver :: args
  | .array elements _ => elements
  | .arrayItem key value _ _ | .keyValue key value => key.toList.map some ++ [value]
  | .arrayAccess base index => base :: index.toList.map some
  | .parameter _ _ default => default.toList.map some
  | .functionDecl _ params body | .functionDef _ _ _ _ params body => params ++ body
  | .returnStmt expr => expr.toList.map some
  | .expressionStmt expr => [expr]
  | .ifStmt condition body elseIfs otherwise =>
    condition :: body ++ elseIfs.map (some ∘ ofElseIf) ++ otherwise.toList.map (some ∘ ofElse)
  | .elseIf condition body | .whileStmt condition body => condition :: body
  | .elseBranch body => body
  | .classDecl _ _ _ properties methods => properties ++ methods
  | .foreign _ _ children => children

def subnodes (node : Node) : List Node := node.children.filterMap id

end Node

/-- The size of a slot; an empty one counts too, so that dropping it is progress. -/
noncomputable def slotSize : Option Node → Nat
  | none => 1
  | some node => sizeOf node

@[simp]
theorem slotSize_none : slotSize none = 1 := rfl

@[simp]
theorem slotSize_some (node : Node) : slotSize (some node) = sizeOf node := rfl

noncomputable def forestSize : Forest → Nat
  | [] => 0
  | slot :: rest => slotSize slot + forestSize rest

@[simp]
theorem forestSize_nil : forestSize [] = 0 := rfl

@[simp]
theorem forestSize_cons (slot : Option Node) (rest : Forest) :
    forestSize (slot :: rest) = slotSize slot + forestSize rest := rfl

@[simp]
theorem forestSize_append (left right : Forest) :
    forestSize (left ++ right) = forestSize left + forestSize right := by
  induction left with
  | nil => simp
  | cons slot rest ih => simp [ih, Nat.add_assoc]

theorem slotSize_le (slot : Option Node) : slotSize slot ≤ sizeOf slot := by
  cases slot <;> simp

theorem forestSize_le (forest : Forest) : forestSize forest ≤ sizeOf forest := by
  induction forest with
  | nil => simp
  | cons slot rest ih =>
    have := slotSize_le slot
    simp
    omega

theorem forestSize_optional (slot : Option Node) :
    forestSize (slot.toList.map some) ≤ sizeOf slot := by
  cases slot <;> simp

theorem forestSize_elseIfs (branches : List (ElseIf Node)) :
    forestSize (branches.map (some ∘ Node.ofElseIf)) ≤ sizeOf branches := by
  induction branches with
  | nil => simp
  | cons branch rest ih =>
    cases branch
    simp [Node.ofElseIf] at *
    omega

theorem forestSize_otherwise (branch : Option (Else Node)) :
    forestSize (branch.toList.map (some ∘ Node.ofElse)) ≤ sizeOf branch := by
  cases branch with
  | none => simp
  | some branch => cases branch; simp [Node.ofElse]; omega

theorem forestSize_children_lt (node : Node) : forestSize node.children < sizeOf node := by
  obtain ⟨pos, shape⟩ := node
  cases shape <;> simp [Node.children] <;>
    grind [slotSize_le, forestSize_le, forestSize_optional, forestSize_elseIfs, forestSize_otherwise]

end PhpLint
