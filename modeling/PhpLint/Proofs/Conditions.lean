import PhpLint.Proofs.BundledRules
import PhpLint.Proofs.Occurrences

/-! The search of conditions for assignments. It finds what a recursion over the operands finds, which
is the assignment with the least path; and searches that start at different nodes never end at the
same place. -/

namespace PhpLint

/-- What stands below an occurrence is found from there. -/
theorem nodeAt_append {forest : Forest} {path : Path} {node : Node}
    (reached : nodeAt forest path = some node) {below : Path} (further : below ≠ []) :
    nodeAt forest (path ++ below) = nodeAt node.slots below := by
  induction path generalizing forest with
  | nil => simp at reached
  | cons index path ih =>
      rw [nodeAt] at reached
      rw [List.cons_append, nodeAt]
      cases root : forest[index]?.join with
      | none => simp [root] at reached
      | some parent =>
          rw [root, Option.bind_some] at reached
          rw [Option.bind_some]
          by_cases last : path = []
          · have same : parent = node := by simpa [last] using reached
            rw [last, List.nil_append, if_neg further, same]
          · rw [if_neg last] at reached
            rw [if_neg (by simp [last]), ih reached]

/-- Of an ordered list, the first item that passes a test comes before all others that do. -/
theorem find?_eq_some_iff_first {α : Type} {before : α → α → Prop}
    (oneWay : ∀ first second, before first second → ¬before second first) {items : List α}
    (ordered : items.Pairwise before) (test : α → Bool) (item : α) :
    items.find? test = some item ↔ item ∈ items ∧ test item = true ∧
      ∀ other ∈ items, test other = true → other = item ∨ before item other := by
  induction items with
  | nil => simp
  | cons head rest ih =>
      rcases List.pairwise_cons.mp ordered with ⟨first, later⟩
      by_cases passes : test head = true
      · rw [List.find?_cons_of_pos passes]
        constructor
        · intro found
          have same : head = item := Option.some.inj found
          refine ⟨by simp [same], same ▸ passes, ?_⟩
          intro other member _
          rcases List.mem_cons.mp member with here | there
          · exact .inl (here.trans same)
          · exact .inr (same ▸ first other there)
        · intro least
          rcases least with ⟨member, _, least⟩
          rcases List.mem_cons.mp member with here | there
          · rw [here]
          · rcases least head List.mem_cons_self passes with same | earlier
            · rw [same]
            · exact absurd earlier (oneWay head item (first item there))
      · rw [List.find?_cons_of_neg passes, ih later]
        grind

namespace Rules

/-- The operands through which a condition is searched, from left to right. -/
def operands (node : Node) : Forest :=
  match node.shape with
  | .binaryExpr left _ right => [left, right]
  | .expressionStmt expr => [expr]
  | .functionCall _ args => args
  | .methodCall receiver _ args => receiver :: args
  | .interpolatedString parts => parts
  | _ => []

theorem operands_eq_children (node : Node) :
    operands node = if node.isOneOf operandKinds then node.children else [] := by
  rcases node with ⟨pos, shape⟩
  cases shape <;> rfl

theorem slotSize_operand_lt {node : Node} {operand : Option Node}
    (member : operand ∈ operands node) : slotSize operand < sizeOf node := by
  have inside := forestSize_children_lt node
  rw [operands_eq_children] at member
  split at member
  · have part := slotSize_le_forestSize member
    omega
  · simp at member

/-- The first assignment by recursion: an assignment itself, else the first that an operand has. -/
def firstAssignment : Option Node → Option Node
  | none => none
  | some node =>
    if node.kind = .assignment then some node
    else (operands node).attach.findSome? fun ⟨operand, _⟩ => firstAssignment operand
termination_by slot => slotSize slot
decreasing_by
  exact slotSize_operand_lt ‹_›

/-- The first assignment that a search of several slots meets. -/
def firstMet (forest : Forest) : Option Node :=
  (walkStack (Node.isOneOf operandKinds) forest).find? (·.kind = .assignment)

theorem firstMet_single (slot : Option Node) : firstMet [slot] = findAssignment slot := rfl

theorem firstMet_eq_findSome? (forest : Forest) : firstMet forest = forest.findSome? findAssignment := by
  induction forest with
  | nil => simp [firstMet]
  | cons slot rest ih =>
      calc
        firstMet (slot :: rest) = (firstMet [slot]).or (firstMet rest) := by
          rw [firstMet, ← List.singleton_append, walkStack_append, List.find?_append]
          rfl
        _ = (slot :: rest).findSome? findAssignment := by
          rw [firstMet_single, ih, List.findSome?_cons]
          cases findAssignment slot <;> rfl

theorem findAssignment_some (node : Node) :
    findAssignment (some node) =
      if node.kind = .assignment then some node else (operands node).findSome? findAssignment := by
  rw [← firstMet_eq_findSome?, operands_eq_children, ← firstMet_single, firstMet, walkStack_some]
  by_cases assigned : node.kind = .assignment
  · simp [assigned]
  · by_cases searched : node.isOneOf operandKinds = true
    · simp [assigned, searched, firstMet]
    · simp [assigned, searched, firstMet]

/-- The search meets what the recursion finds. -/
theorem findAssignment_eq_firstAssignment (slot : Option Node) :
    findAssignment slot = firstAssignment slot := by
  fun_induction firstAssignment slot with
  | case1 => exact findAssignment_none
  | case2 node assigned => rw [findAssignment_some, if_pos assigned]
  | case3 node other below =>
      rw [findAssignment_some, if_neg other]
      have same : (fun operand : { slot // slot ∈ operands node } => firstAssignment operand.val) =
          fun operand => findAssignment operand.val :=
        funext fun operand => (below operand.val operand.property).symm
      simp [same]

/-- An assignment stands at a path of a condition, and the way to it leads through operands only. -/
def AssignedAt (condition : Option Node) (path : Path) (found : Node) : Prop :=
  nodeAt [condition] path = some found ∧ found.kind = .assignment ∧
    ∀ ancestor, Above [condition] path ancestor → ancestor.kind ∈ operandKinds

/-- Of the assignments that stand so, the one with the least path. -/
def FirstAssignedAt (condition : Option Node) (path : Path) (found : Node) : Prop :=
  AssignedAt condition path found ∧ ∀ other elsewhere, AssignedAt condition other elsewhere →
    other = path ∨ List.Lex (· < ·) path other

/-- The first assignment that the search of a condition meets, and its path. -/
def assignmentPlace (condition : Option Node) : Option (Path × Node) :=
  (occurrences (Node.isOneOf operandKinds) [condition]).find? (·.2.kind = .assignment)

theorem assignmentPlace_node (condition : Option Node) :
    (assignmentPlace condition).map Prod.snd = findAssignment condition := by
  rw [findAssignment, walk, Option.getD_some, ← occurrences_nodes, List.find?_map]
  rfl

theorem assignedAt_iff (condition : Option Node) (path : Path) (found : Node) :
    AssignedAt condition path found ↔
      (path, found) ∈ occurrences (Node.isOneOf operandKinds) [condition] ∧
        found.kind = .assignment := by
  rw [mem_occurrences, AssignedAt, and_assoc, and_comm (b := found.kind = .assignment)]
  simp only [Open, Node.isOneOf, List.contains_eq_mem, decide_eq_true_eq]

theorem assignmentPlace_eq_some_iff (condition : Option Node) (path : Path) (found : Node) :
    assignmentPlace condition = some (path, found) ↔ FirstAssignedAt condition path found := by
  have ordered := List.pairwise_map.mp
    (occurrences_ordered (Node.isOneOf operandKinds) [condition])
  have oneWay : ∀ first second : Path × Node, List.Lex (· < ·) first.1 second.1 →
      ¬List.Lex (· < ·) second.1 first.1 := fun _ _ => List.lt_asymm
  rw [assignmentPlace, find?_eq_some_iff_first oneWay ordered, decide_eq_true_eq, ← and_assoc,
    ← assignedAt_iff, FirstAssignedAt]
  apply and_congr_right
  intro assigned
  constructor
  · intro least other elsewhere there
    rcases (assignedAt_iff condition other elsewhere).mp there with ⟨listed, kind⟩
    rcases least (other, elsewhere) listed (by simpa using kind) with same | before
    · exact .inl (congrArg Prod.fst same)
    · exact .inr before
  · intro least place listed kind
    have there := (assignedAt_iff condition place.1 place.2).mpr ⟨listed, by simpa using kind⟩
    rcases least place.1 place.2 there with same | before
    · have node : some place.2 = some found := by rw [← assigned.1, ← there.1, same]
      exact .inl (Prod.ext same (Option.some.inj node))
    · exact .inr before

theorem assignmentPlace_eq_none_iff (condition : Option Node) :
    assignmentPlace condition = none ↔ ∀ path found, ¬AssignedAt condition path found := by
  rw [assignmentPlace, List.find?_eq_none]
  constructor
  · intro absent path found there
    rcases (assignedAt_iff condition path found).mp there with ⟨listed, kind⟩
    exact absent (path, found) listed (by simpa using kind)
  · intro absent place listed kind
    exact absent place.1 place.2
      ((assignedAt_iff condition place.1 place.2).mpr ⟨listed, by simpa using kind⟩)

/-- The search of a condition finds what the recursion over its operands finds. That is the assignment
with the least path among those below operands only, and nothing exactly if there are none. -/
theorem findAssignment_finds_least_path (condition : Option Node) :
    findAssignment condition = firstAssignment condition ∧
    (∀ found, findAssignment condition = some found ↔
      ∃ path, FirstAssignedAt condition path found) ∧
    (findAssignment condition = none ↔ ∀ path found, ¬AssignedAt condition path found) := by
  refine ⟨findAssignment_eq_firstAssignment condition, ?_, ?_⟩
  · intro found
    simp only [← assignmentPlace_eq_some_iff, ← assignmentPlace_node, Option.map_eq_some_iff,
      Prod.exists, exists_eq_right]
  · rw [← assignmentPlace_node, Option.map_eq_none_iff, assignmentPlace_eq_none_iff]

/-- A node with a condition is no operand, and its condition is its first slot. -/
theorem conditionOf_first {node condition : Node} (branches : conditionOf node = some condition) :
    node.kind ∉ operandKinds ∧ ∃ rest, node.slots = some condition :: rest := by
  rcases node with ⟨pos, shape⟩
  cases shape with
  | ifStmt | elseIf | whileStmt =>
      cases branches
      exact ⟨by simp [operandKinds, Node.kind, Shape.kind], _, rfl⟩
  | _ => cases branches

/-- Where a condition holds an assignment, the node has that condition in its first slot and is no
operand itself. -/
theorem AssignedAt.slots {node found : Node} {inside : Path}
    (assigned : AssignedAt (conditionOf node) inside found) :
    node.kind ∉ operandKinds ∧ ∀ part rest, part ++ rest = inside →
      nodeAt node.slots part = nodeAt [conditionOf node] part := by
  have reached := assigned.1
  cases branches : conditionOf node with
  | none =>
      rw [branches] at reached
      match inside with
      | [] | 0 :: _ | (_ + 1) :: _ => simp at reached
  | some condition =>
      rcases conditionOf_first branches with ⟨kind, others, slots⟩
      refine ⟨kind, ?_⟩
      intro part rest joined
      match part with
      | [] => rfl
      | 0 :: part => rw [slots, nodeAt_present, nodeAt_present]
      | (index + 1) :: part => simp [← joined] at reached

variable {forest : Forest} {start finish below : Path} {node found other : Node} {inside : Path}

/-- An assignment found from a node stands below it, and not at it. -/
theorem AssignedAt.reached (assigned : AssignedAt (conditionOf node) inside found) :
    inside ≠ [] ∧ nodeAt node.slots inside = some found := by
  have same := assigned.slots.2 inside [] (List.append_nil inside)
  rw [assigned.1] at same
  refine ⟨?_, same⟩
  intro none
  simp [none] at same

/-- The nodes on the way to an assignment are operands. -/
theorem AssignedAt.kind_of_passed {part rest : Path} {passed : Node}
    (assigned : AssignedAt (conditionOf node) (part ++ rest) found) (further : rest ≠ [])
    (reached : nodeAt node.slots part = some passed) : passed.kind ∈ operandKinds := by
  rw [assigned.slots.2 part rest rfl] at reached
  refine assigned.2.2 passed ⟨part, List.prefix_append part rest, ?_, reached⟩
  intro same
  exact further (List.self_eq_append_right.mp same)

/-- The search of the condition of the node at one path ends at an assignment at another. -/
def SearchEnds (forest : Forest) (start finish : Path) (found : Node) : Prop :=
  ∃ node inside, nodeAt forest start = some node ∧
    FirstAssignedAt (conditionOf node) inside found ∧ start ++ inside = finish

theorem SearchEnds.reaches (ends : SearchEnds forest start finish found) :
    nodeAt forest finish = some found ∧ found.kind = .assignment := by
  rcases ends with ⟨node, inside, starts, ⟨assigned, _⟩, joined⟩
  rcases assigned.reached with ⟨further, reached⟩
  rw [← joined, nodeAt_append starts further]
  exact ⟨reached, assigned.2.1⟩

/-- No search ends where another does that started further up. -/
theorem SearchEnds.not_below (ends : SearchEnds forest start finish found)
    (inner : SearchEnds forest (start ++ below) finish other) : below = [] := by
  rcases ends with ⟨node, inside, starts, ⟨assigned, _⟩, joined⟩
  rcases inner with ⟨passed, rest, within, ⟨again, _⟩, same⟩
  by_contra further
  -- The inner search would start at a node on the way of the outer one, which is an operand.
  have path : below ++ rest = inside := by
    rw [← joined, List.append_assoc] at same
    exact List.append_cancel_left same
  rw [← path] at assigned
  rw [nodeAt_append starts further] at within
  exact again.slots.1 (assigned.kind_of_passed again.reached.1 within)

theorem SearchEnds.start_unique {first second : Path} (ends : SearchEnds forest first finish found)
    (meets : SearchEnds forest second finish other) : first = second := by
  have joined : ∃ inside rest, first ++ inside = second ++ rest := by
    rcases ends with ⟨_, inside, _, _, left⟩
    rcases meets with ⟨_, rest, _, _, right⟩
    exact ⟨inside, rest, left.trans right.symm⟩
  rcases joined with ⟨inside, rest, joined⟩
  rcases List.append_eq_append_iff.mp joined with ⟨below, same, _⟩ | ⟨below, same, _⟩
  · rw [same] at meets
    rw [same, ends.not_below meets, List.append_nil]
  · rw [same] at ends
    rw [same, meets.not_below ends, List.append_nil]

/-- The place where the search that starts at an occurrence ends, if it finds an assignment. -/
def searchEnd (start : Path × Node) : Option (Path × Node) :=
  (assignmentPlace (conditionOf start.2)).map fun (inside, found) => (start.1 ++ inside, found)

theorem searchEnd_eq_some_iff {start finish : Path × Node}
    (starts : nodeAt forest start.1 = some start.2) :
    searchEnd start = some finish ↔ SearchEnds forest start.1 finish.1 finish.2 := by
  rw [searchEnd, Option.map_eq_some_iff]
  constructor
  · intro ends
    rcases ends with ⟨place, placed, joined⟩
    rw [← joined]
    exact ⟨start.2, place.1, starts, (assignmentPlace_eq_some_iff _ _ _).mp placed, rfl⟩
  · intro ends
    rcases ends with ⟨node, inside, reached, first, joined⟩
    have same : start.2 = node := Option.some.inj (starts.symm.trans reached)
    rw [← same, ← assignmentPlace_eq_some_iff] at first
    exact ⟨(inside, finish.2), first, Prod.ext joined rfl⟩

/-- The places where a check reports an assignment, in the order of the nodes at which the searches
start. -/
def reportedPlaces (descend : Node → Bool) (forest : Forest) : List (Path × Node) :=
  (occurrences descend forest).filterMap searchEnd

theorem reportedPlaces_nodes (descend : Node → Bool) (forest : Forest) :
    (reportedPlaces descend forest).map Prod.snd =
      (walkStack descend forest).filterMap fun node => findAssignment (conditionOf node) := by
  rw [reportedPlaces, List.map_filterMap, ← occurrences_nodes, List.filterMap_map]
  congr 1
  funext start
  simp [searchEnd, ← assignmentPlace_node, Function.comp_def]

theorem mem_reportedPlaces (descend : Node → Bool) (forest : Forest) (finish : Path)
    (found : Node) :
    (finish, found) ∈ reportedPlaces descend forest ↔
      ∃ start, Open descend forest start ∧ SearchEnds forest start finish found := by
  rw [reportedPlaces, List.mem_filterMap]
  constructor
  · intro listed
    rcases listed with ⟨start, member, ends⟩
    rcases (mem_occurrences _ _ _ _).mp member with ⟨starts, reached⟩
    exact ⟨start.1, reached, (searchEnd_eq_some_iff starts).mp ends⟩
  · intro ended
    rcases ended with ⟨start, reached, node, inside, starts, first⟩
    exact ⟨(start, node), (mem_occurrences _ _ _ _).mpr ⟨starts, reached⟩,
      (searchEnd_eq_some_iff starts).mpr ⟨node, inside, starts, first⟩⟩

theorem reportedPlaces_nodup (descend : Node → Bool) (forest : Forest) :
    ((reportedPlaces descend forest).map Prod.fst).Nodup := by
  have ordered := List.pairwise_map.mp (occurrences_ordered descend forest)
  rw [List.Nodup, List.pairwise_map, reportedPlaces, List.pairwise_filterMap]
  refine ordered.imp_of_mem ?_
  intro first second listed later before finish ends other meets same
  have starts := ((mem_occurrences _ _ _ _).mp listed).1
  have again := ((mem_occurrences _ _ _ _).mp later).1
  have ended := (searchEnd_eq_some_iff starts).mp ends
  rw [same] at ended
  rw [ended.start_unique ((searchEnd_eq_some_iff again).mp meets)] at before
  exact List.lt_irrefl _ before

/-- A check for assignments in conditions reports each place once: searches that start at different
nodes never end at the same place. -/
theorem assignmentInCondition_reports_distinct_places (descendInto : Option (List Kind))
    (forest : Forest) (filename : String) :
    let descend := (descendInto.map Node.isOneOf).getD fun _ => true
    let places := reportedPlaces descend forest
    assignmentInCondition.reports descendInto forest filename =
      (places.map fun (_, found) => assignmentInCondition.issue
        (.about found filename "Assignment in condition"), none) ∧
    (∀ finish found, (finish, found) ∈ places ↔
      ∃ start, Open descend forest start ∧ SearchEnds forest start finish found) ∧
    (∀ start finish found, SearchEnds forest start finish found →
      nodeAt forest finish = some found ∧ found.kind = .assignment) ∧
    (places.map Prod.fst).Nodup ∧
    ∀ first second finish found other, SearchEnds forest first finish found →
      SearchEnds forest second finish other → first = second := by
  intro descend places
  refine ⟨?_, mem_reportedPlaces descend forest, fun _ _ _ ends => ends.reaches,
    reportedPlaces_nodup descend forest, fun _ _ _ _ _ ends meets => ends.start_unique meets⟩
  rw [assignmentInCondition.reports_eq_filterMap filename _ _ (fun _ => rfl)
    (assignmentInCondition_looks filename), walk, ← reportedPlaces_nodes, List.map_map]
  rfl

end Rules

end PhpLint
