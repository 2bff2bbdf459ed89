import PhpLint.Proofs.Occurrences
import PhpLint.Proofs.Visits

/-! The orders of a traversal. A visitor that answers by the node alone enters nodes in the order of
the walk and leaves them in post-order. -/

namespace PhpLint

/-- The order in which occurrences are left: what is below a node before the node itself, and what
is in one slot before what is in a later one. -/
inductive LeftBefore : Path → Path → Prop
  | descendant (index : Nat) (path : Path) : LeftBefore (index :: path) []
  | sibling {first second : Nat} (earlier : first < second) (path other : Path) :
      LeftBefore (first :: path) (second :: other)
  | inside {path other : Path} (index : Nat) (before : LeftBefore path other) :
      LeftBefore (index :: path) (index :: other)

theorem LeftBefore.shift {first second : Path} (before : LeftBefore first second) :
    LeftBefore first.shift second.shift := by
  cases before with
  | descendant index path => exact .descendant _ path
  | sibling earlier path other => exact .sibling (Nat.succ_lt_succ earlier) path other
  | inside index before => exact .inside _ before

theorem LeftBefore.zero_shift (path : Path) {other : Path} (started : other ≠ []) :
    LeftBefore (0 :: path) other.shift := by
  cases other with
  | nil => exact absurd rfl started
  | cons index rest => exact .sibling (Nat.succ_pos index) path rest

/-- The occurrences that a walk reaches, each after those below it. -/
def departures (descend : Node → Bool) : Forest → List (Path × Node)
  | [] => []
  | none :: rest => relabel .shift (departures descend rest)
  | some node :: rest =>
    let below := if descend node then departures descend node.slots else []
    relabel (List.cons 0) below ++ ([0], node) :: relabel .shift (departures descend rest)
termination_by forest => forestSize forest
decreasing_by
  · exact forestSize_tail_lt none rest
  · exact forestSize_lt_cons node node.forestSize_slots_lt rest
  · exact forestSize_tail_lt (some node) rest

theorem relabel_perm (move : Path → Path) {listing other : List (Path × Node)}
    (same : listing.Perm other) : (relabel move listing).Perm (relabel move other) :=
  same.map _

theorem departures_perm (descend : Node → Bool) (forest : Forest) :
    (departures descend forest).Perm (occurrences descend forest) := by
  fun_induction departures descend forest with
  | case1 => rw [occurrences]
  | case2 rest ih =>
      rw [occurrences]
      exact relabel_perm _ ih
  | case3 node rest listed below after =>
      rw [occurrences]
      refine List.perm_middle.trans (.cons _ (.append (relabel_perm _ ?_) (relabel_perm _ after)))
      by_cases passes : descend node = true
      · simpa [listed, passes] using below
      · simp [listed, passes]

theorem departures_path_ne_nil (descend : Node → Bool) (forest : Forest) (path : Path)
    (listed : path ∈ (departures descend forest).map Prod.fst) : path ≠ [] := by
  have same := (departures_perm descend forest).map Prod.fst
  exact occurrences_path_ne_nil descend forest path (same.mem_iff.mp listed)

theorem departures_ordered (descend : Node → Bool) (forest : Forest) :
    ((departures descend forest).map Prod.fst).Pairwise LeftBefore := by
  fun_induction departures descend forest with
  | case1 => simp
  | case2 rest ih =>
      rw [relabel_paths]
      exact ih.map _ fun _ _ => LeftBefore.shift
  | case3 node rest listed below after =>
      have lowered : ((listed.map Prod.fst).map (List.cons 0)).Pairwise LeftBefore := by
        by_cases passes : descend node = true
        · simp only [listed, passes]
          exact below.map _ fun _ _ => LeftBefore.inside 0
        · simp [listed, passes]
      have inside : ∀ path ∈ listed.map Prod.fst, path ≠ [] := by
        by_cases passes : descend node = true
        · simp only [listed, passes]
          exact departures_path_ne_nil descend node.slots
        · simp [listed, passes]
      have shifted := after.map Path.shift fun _ _ => LeftBefore.shift
      have beside := departures_path_ne_nil descend rest
      simp only [List.map_cons, List.map_append, relabel_paths]
      rw [List.pairwise_append, List.pairwise_cons]
      refine ⟨lowered, ⟨?_, shifted⟩, ?_⟩
      · intro path later
        obtain ⟨other, present, rfl⟩ := List.mem_map.mp later
        exact LeftBefore.zero_shift [] (beside other present)
      · intro first earlier second later
        obtain ⟨tail, present, rfl⟩ := List.mem_map.mp earlier
        rcases List.mem_cons.mp later with rfl | later
        · cases tail with
          | nil => exact absurd rfl (inside [] present)
          | cons index tail => exact .inside 0 (.descendant index tail)
        · obtain ⟨other, placed, rfl⟩ := List.mem_map.mp later
          exact LeftBefore.zero_shift tail (beside other placed)

namespace Visitor

variable {σ : Type}

/-- The node that an event enters. -/
def Event.entered? : Event → Option Node
  | .entered node _ => some node
  | .left _ => none

/-- The node that an event leaves. -/
def Event.left? : Event → Option Node
  | .entered _ _ => none
  | .left node => some node

theorem events_filterMap (visitor : Visitor σ) (forest : Forest) (state : σ) :
    visitor.events ((forest.filterMap id).map some) state = visitor.events forest state := by
  induction forest generalizing state with
  | nil => rfl
  | cons slot rest ih =>
      cases slot with
      | none =>
          rw [events]
          exact ih state
      | some node =>
          show visitor.events (some node :: (rest.filterMap id).map some) state = _
          rw [events, events]
          simp only [ih]

theorem events_slots (visitor : Visitor σ) (node : Node) (state : σ) :
    visitor.events node.slots state = visitor.events node.children state := by
  rw [← visitor.events_filterMap node.slots, node.filterMap_slots, events_filterMap]

variable {visitor : Visitor σ} {descend : Node → Bool}

theorem events_entered (answers : ∀ node state, (visitor.enter node state).1 = descend node)
    (forest : Forest) (state : σ) :
    (visitor.events forest state).filterMap Event.entered? = walkStack descend forest := by
  induction forest using forest_induction generalizing state with
  | nil => simp [events]
  | missing rest ih => rw [events, walkStack_none, ih]
  | present node rest below after =>
      rw [events, walkStack_some, ← answers node state]
      rcases visitor.enter node state with ⟨descends, inside⟩
      cases descends with
      | false => simp [List.filterMap_cons, Event.entered?, after]
      | true => simp [List.filterMap_cons, Event.entered?, below, after]

theorem events_left (answers : ∀ node state, (visitor.enter node state).1 = descend node)
    (forest : Forest) (state : σ) :
    (visitor.events forest state).filterMap Event.left? =
      (departures descend forest).map Prod.snd := by
  fun_induction departures descend forest generalizing state with
  | case1 => simp [events]
  | case2 rest ih => rw [events, relabel_nodes, ih]
  | case3 node rest listed below after =>
      have answer := answers node state
      rw [events]
      rcases entered : visitor.enter node state with ⟨descends, inside⟩
      rw [entered] at answer
      cases descends with
      | false => simp [List.filterMap_cons, Event.left?, listed, ← answer, after]
      | true =>
          -- Paths count slots where events follow children; the events are the same.
          have same := visitor.events_slots node inside
          simp [List.filterMap_cons, Event.left?, listed, ← answer, ← same, below, after]

/-- A traversal by a visitor that answers by the node alone enters the nodes of the walk in their
order. It leaves the same occurrences, each after all that were entered below it, and siblings in
the order of their slots. -/
theorem traverse_enters_walk_leaves_postorder (visitor : Visitor σ) (descend : Node → Bool)
    (answers : ∀ node state, (visitor.enter node state).1 = descend node) (forest : Forest)
    (state : σ) :
    ∃ log : List Event,
      visitor.traced.traverse forest (state, []) = (visitor.traverse forest state, log) ∧
      log.filterMap Event.entered? = walk forest (some descend) ∧
      (occurrences descend forest).map Prod.snd = walk forest (some descend) ∧
      log.filterMap Event.left? = (departures descend forest).map Prod.snd ∧
      (departures descend forest).Perm (occurrences descend forest) ∧
      ((departures descend forest).map Prod.fst).Pairwise LeftBefore := by
  refine ⟨visitor.events forest state, ?_, events_entered answers forest state,
    occurrences_nodes descend forest, events_left answers forest state,
    departures_perm descend forest, departures_ordered descend forest⟩
  rw [traverse_eq_visit, visit_traced, traverse_eq_visit, List.nil_append]

/-- An array that is refused is left before the assignment around it; its element is never met. -/
theorem traverse_orders_refused_array :
    let name : Node := ⟨⟨1, 1, 0⟩, .variableRef "x"⟩
    let array : Node := ⟨⟨1, 6, 5⟩, .array [some name] false⟩
    let assigned : Node := ⟨⟨1, 4, 3⟩, .assignment (some name) (some array)⟩
    let counting : Visitor Nat :=
      ⟨fun node count => (node.kind ≠ .array, count + 1), fun _ count => count⟩
    (∀ node count, (counting.enter node count).1 = decide (node.kind ≠ .array)) ∧
    ∃ log : List Event,
      counting.traced.traverse [some assigned, none, some name] (0, []) =
        (counting.traverse [some assigned, none, some name] 0, log) ∧
      log.filterMap Event.entered? = [assigned, name, array, name] ∧
      log.filterMap Event.left? = [name, array, assigned, name] := by
  intro name array assigned counting
  have answers : ∀ node count, (counting.enter node count).1 = decide (node.kind ≠ .array) :=
    fun _ _ => rfl
  obtain ⟨log, traced, entered, -, left, -, -⟩ := traverse_enters_walk_leaves_postorder counting
    (fun node => node.kind ≠ .array) answers [some assigned, none, some name] 0
  refine ⟨answers, log, traced, ?_, ?_⟩
  · rw [entered, walk]
    simp [assigned, array, name, Node.kind, Shape.kind, Node.children]
  · rw [left]
    simp [departures, assigned, array, name, Node.kind, Shape.kind, Node.slots, Node.fields,
      Node.ownFields, Field.nodes, Field.text]

end Visitor

end PhpLint
