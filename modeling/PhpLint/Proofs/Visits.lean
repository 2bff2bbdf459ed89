import Mathlib.Logic.Function.Iterate
import PhpLint.Proofs.Preorder
import PhpLint.Tree.Traversal

/-! Traversals as recursions. The loop over a stack of tasks ends where the recursion over the forest
ends, after one round for each event, and its events are nested as the forest is. -/

namespace PhpLint.Visitor

variable {σ : Type}

/-- Visits root by root: enters a node, visits its children if that was the answer, and leaves it. -/
def visit (visitor : Visitor σ) : Forest → σ → σ
  | [], state => state
  | none :: rest, state => visit visitor rest state
  | some node :: rest, state =>
    let (descends, inside) := visitor.enter node state
    let done := if descends then visit visitor node.children inside else inside
    visit visitor rest (visitor.leave node done)
termination_by forest => forestSize forest
decreasing_by
  · exact forestSize_tail_lt none rest
  · exact forestSize_lt_cons node (forestSize_children_lt node) rest
  · exact forestSize_tail_lt (some node) rest

/-- What happens to a node in the course of a traversal. -/
inductive Event where
  | entered (node : Node) (descends : Bool)
  | left (node : Node)

/-- The events of the visits to a forest that start in some state. -/
def events (visitor : Visitor σ) : Forest → σ → List Event
  | [], _ => []
  | none :: rest, state => events visitor rest state
  | some node :: rest, state =>
    let (descends, inside) := visitor.enter node state
    let below := if descends then events visitor node.children inside else []
    let done := if descends then visitor.visit node.children inside else inside
    .entered node descends :: below ++ .left node :: events visitor rest (visitor.leave node done)
termination_by forest => forestSize forest
decreasing_by
  · exact forestSize_tail_lt none rest
  · exact forestSize_lt_cons node (forestSize_children_lt node) rest
  · exact forestSize_tail_lt (some node) rest

/-- The visitor that also keeps its events. -/
def traced (visitor : Visitor σ) : Visitor (σ × List Event) where
  enter node := fun (state, log) =>
    let (descends, inside) := visitor.enter node state
    (descends, inside, log ++ [.entered node descends])
  leave node := fun (state, log) => (visitor.leave node state, log ++ [.left node])

@[simp]
theorem traced_enter (visitor : Visitor σ) (node : Node) (state : σ) (log : List Event) :
    visitor.traced.enter node (state, log) =
      ((visitor.enter node state).1, (visitor.enter node state).2,
        log ++ [.entered node (visitor.enter node state).1]) := rfl

@[simp]
theorem traced_leave (visitor : Visitor σ) (node : Node) (state : σ) (log : List Event) :
    visitor.traced.leave node (state, log) = (visitor.leave node state, log ++ [.left node]) := rfl

/-- Events that are nested as a forest is. Between the two events of a node stand those of its
children, or none if they were refused; those of its next sibling come after both. -/
inductive Nested : Forest → List Event → Prop
  | nil : Nested [] []
  | missing {rest : Forest} {later : List Event} (siblings : Nested rest later) :
      Nested (none :: rest) later
  | refused {node : Node} {rest : Forest} {later : List Event} (siblings : Nested rest later) :
      Nested (some node :: rest) (.entered node false :: .left node :: later)
  | descended {node : Node} {rest : Forest} {below later : List Event}
      (children : Nested node.children below) (siblings : Nested rest later) :
      Nested (some node :: rest) (.entered node true :: below ++ .left node :: later)

theorem events_nested (visitor : Visitor σ) (forest : Forest) (state : σ) :
    Nested forest (visitor.events forest state) := by
  induction forest using forest_induction generalizing state with
  | nil =>
      rw [events]
      exact .nil
  | missing rest ih =>
      rw [events]
      exact .missing (ih state)
  | present node rest below after =>
      rw [events]
      rcases visitor.enter node state with ⟨descends, inside⟩
      cases descends with
      | false => exact .refused (after _)
      | true => exact .descended (below inside) (after _)

theorem visit_traced (visitor : Visitor σ) (forest : Forest) (state : σ) (log : List Event) :
    visitor.traced.visit forest (state, log) =
      (visitor.visit forest state, log ++ visitor.events forest state) := by
  induction forest using forest_induction generalizing state log with
  | nil => simp [visit, events]
  | missing rest ih =>
      rw [visit, visit, events]
      exact ih state log
  | present node rest below after =>
      rw [visit, visit, events]
      rcases answer : visitor.enter node state with ⟨descends, inside⟩
      cases descends with
      | false => simp [answer, after]
      | true => simp [answer, below, after]

/-- The tasks that a traversal of a forest starts with. -/
def pending (forest : Forest) : List Task := (forest.filterMap id).map .enter

/-- One round of the loop: the task on top of the stack is done, and what it asks for comes first
from then on. -/
def step (visitor : Visitor σ) : List Task × σ → List Task × σ
  | ([], state) => ([], state)
  | (.leave node :: rest, state) => (rest, visitor.leave node state)
  | (.enter node :: rest, state) =>
    let (descends, inside) := visitor.enter node state
    ((if descends then pending node.children else []) ++ .leave node :: rest, inside)

theorem run_step (visitor : Visitor σ) (stack : List Task) (state : σ) :
    visitor.run (visitor.step (stack, state)).1 (visitor.step (stack, state)).2 =
      visitor.run stack state := by
  match stack with
  | [] => rfl
  | .leave node :: rest => rw [step, run]
  | .enter node :: rest =>
      rw [step, run]
      rfl

theorem run_iterate_step (visitor : Visitor σ) (rounds : Nat) (stack : List Task) (state : σ) :
    visitor.run (visitor.step^[rounds] (stack, state)).1 (visitor.step^[rounds] (stack, state)).2 =
      visitor.run stack state := by
  induction rounds with
  | zero => rfl
  | succ rounds ih =>
      rw [Function.iterate_succ_apply', run_step]
      exact ih

/-- One round for each event takes the roots off the stack, whatever lies below them there. -/
theorem iterate_step_pending (visitor : Visitor σ) (forest : Forest) (state : σ)
    (stack : List Task) :
    visitor.step^[(visitor.events forest state).length] (pending forest ++ stack, state) =
      (stack, visitor.visit forest state) := by
  induction forest using forest_induction generalizing state stack with
  | nil => simp [visit, events, pending]
  | missing rest ih =>
      rw [visit, events]
      exact ih state stack
  | present node rest below after =>
      rw [visit, events]
      rcases answer : visitor.enter node state with ⟨descends, inside⟩
      have first : visitor.step (pending (some node :: rest) ++ stack, state) =
          ((if descends then pending node.children else []) ++
            .leave node :: (pending rest ++ stack), inside) := by
        simp [pending, step, answer]
      cases descends with
      | false =>
          simp only [Bool.false_eq_true, if_false, List.cons_append, List.nil_append,
            List.length_cons, Function.iterate_succ_apply] at first ⊢
          rw [first, step, after]
      | true =>
          let done := visitor.visit node.children inside
          let below' := visitor.events node.children inside
          let later := visitor.events rest (visitor.leave node done)
          simp only [if_true, List.cons_append, List.length_cons, List.length_append] at first ⊢
          -- The task of leaving waits on the stack below the children, where `below` allows anything.
          calc
            visitor.step^[below'.length + (later.length + 1) + 1]
                (pending (some node :: rest) ++ stack, state) =
                visitor.step^[later.length + 1 + below'.length]
                  (pending node.children ++ .leave node :: (pending rest ++ stack), inside) := by
              rw [Function.iterate_succ_apply, first, Nat.add_comm]
            _ = visitor.step^[later.length + 1] (.leave node :: (pending rest ++ stack), done) := by
              rw [Function.iterate_add_apply, below]
            _ = visitor.step^[later.length] (pending rest ++ stack, visitor.leave node done) := by
              rw [Function.iterate_succ_apply, step]
            _ = (stack, visitor.visit rest (visitor.leave node done)) := after _ stack

theorem traverse_eq_visit (visitor : Visitor σ) (forest : Forest) (state : σ) :
    visitor.traverse forest state = visitor.visit forest state := by
  have rounds := iterate_step_pending visitor forest state []
  have kept := run_iterate_step visitor (visitor.events forest state).length
    (pending forest ++ []) state
  rw [rounds, run, List.append_nil] at kept
  exact kept.symm

/-- A visitor that answers by the node alone and does nothing on leaving goes over the walk, node by
node. -/
theorem traverse_eq_foldl (visitor : Visitor σ) (descend : Node → Bool)
    (answers : ∀ node state, (visitor.enter node state).1 = descend node)
    (passes : ∀ node state, visitor.leave node state = state) (forest : Forest) (state : σ) :
    visitor.traverse forest state =
      (walkStack descend forest).foldl (fun state node => (visitor.enter node state).2) state := by
  rw [traverse_eq_visit]
  induction forest using forest_induction generalizing state with
  | nil => rw [visit, walkStack_nil, List.foldl_nil]
  | missing rest ih => rw [visit, walkStack_none, ih]
  | present node rest below after =>
      rw [visit, walkStack_some, ← answers node state]
      rcases answer : visitor.enter node state with ⟨descends, inside⟩
      cases descends with
      | false => simp [answer, passes, after]
      | true => simp [answer, passes, below, after]

/-- The loop ends in the state of the recursion, after as many rounds as there are events, and its
events are nested: every node that is entered is left once, after all events below it and before
those of its next sibling. -/
theorem traverse_refines_visit (visitor : Visitor σ) (forest : Forest) (state : σ) :
    visitor.traverse forest state = visitor.visit forest state ∧
    visitor.step^[(visitor.events forest state).length] (pending forest, state) =
      ([], visitor.visit forest state) ∧
    visitor.traced.traverse forest (state, []) =
      (visitor.visit forest state, visitor.events forest state) ∧
    Nested forest (visitor.events forest state) := by
  refine ⟨traverse_eq_visit visitor forest state, ?_, ?_, events_nested visitor forest state⟩
  · have rounds := iterate_step_pending visitor forest state []
    rwa [List.append_nil] at rounds
  · rw [traverse_eq_visit, visit_traced, List.nil_append]

end PhpLint.Visitor
