import PhpLint.Tree.Children

/-! Ways through a forest. A walk lists a node before its children, children in declaration order, and
all of them before the next sibling. A visitor changes a state on entering a node and on leaving it. -/

namespace PhpLint

def Node.isOneOf (kinds : List Kind) (node : Node) : Bool := kinds.contains node.kind

/-- Lists the nodes of a stack of slots, and below a node where `descend` holds those of its
children. -/
def walkStack (descend : Node → Bool) : Forest → List Node
  | [] => []
  | none :: rest => walkStack descend rest
  | some node :: rest =>
    node :: walkStack descend ((if descend node then node.children else []) ++ rest)
termination_by stack => forestSize stack
decreasing_by
  · simp
  · have := forestSize_children_lt node
    split <;> simp <;> omega

/-- The nodes of a forest in the order they are met. Without a descent test every node is met. -/
def walk (forest : Forest) (descend : Option (Node → Bool)) : List Node :=
  walkStack (descend.getD fun _ => true) forest

/-- Entering a node also answers whether its children are to be visited. -/
structure Visitor (σ : Type) where
  enter : Node → σ → Bool × σ
  leave : Node → σ → σ

namespace Visitor

inductive Task where
  | enter (node : Node)
  | leave (node : Node)

noncomputable def Task.size : Task → Nat
  | .enter node => 2 * sizeOf node
  | .leave _ => 1

noncomputable def stackSize : List Task → Nat
  | [] => 0
  | task :: rest => task.size + stackSize rest

theorem stackSize_append (left right : List Task) :
    stackSize (left ++ right) = stackSize left + stackSize right := by
  induction left with
  | nil => simp [stackSize]
  | cons task rest ih => simp [stackSize, ih, Nat.add_assoc]

theorem stackSize_subnodes_lt (node : Node) :
    stackSize (node.subnodes.map .enter) + 1 < 2 * sizeOf node := by
  have fits : ∀ forest : Forest,
      stackSize ((forest.filterMap id).map .enter) ≤ 2 * forestSize forest := by
    intro forest
    induction forest with
    | nil => simp [stackSize]
    | cons slot rest ih =>
      cases slot <;> simp_all [stackSize, Task.size] <;> omega
  have := fits node.children
  have := forestSize_children_lt node
  simp only [Node.subnodes]
  omega

variable {σ : Type}

/-- Runs the visitor on a stack of tasks. A node is left once the tasks of its children are done,
also when they were refused. -/
def run (visitor : Visitor σ) : List Task → σ → σ
  | [], state => state
  | .leave node :: rest, state => run visitor rest (visitor.leave node state)
  | .enter node :: rest, state =>
    let (descend, state) := visitor.enter node state
    let below := if descend then node.subnodes.map .enter else []
    run visitor (below ++ .leave node :: rest) state
termination_by stack => stackSize stack
decreasing_by
  · simp [stackSize, Task.size]
  · have := stackSize_subnodes_lt node
    split <;> simp [stackSize_append, stackSize, Task.size] <;> omega

def traverse (visitor : Visitor σ) (forest : Forest) (state : σ) : σ :=
  visitor.run ((forest.filterMap id).map .enter) state

end Visitor

structure Handlers (σ : Type) where
  onEnter : Kind → Option (Node → σ → Bool × σ)
  onLeave : Kind → Option (Node → σ → σ)

def Handlers.visitor {σ : Type} (handlers : Handlers σ) : Visitor σ where
  enter node state :=
    match handlers.onEnter node.kind with
    | none => (true, state)
    | some handler => handler node state
  leave node state :=
    match handlers.onLeave node.kind with
    | none => state
    | some handler => handler node state

end PhpLint
