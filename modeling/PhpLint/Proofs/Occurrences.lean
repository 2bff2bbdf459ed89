import PhpLint.Proofs.Preorder
import PhpLint.Tree.Fields

/-! Occurrences of nodes in a forest. An occurrence is found by its path: the number of a root, and
from there on the number of a slot among all that the fields of a node hold, empty ones counted. -/

namespace PhpLint

/-- The slots of a field; data have none. -/
def Field.nodes : Field → Forest
  | .slot child => [child]
  | .list children => children
  | .datum _ | .position _ => []

/-- All slots of a node in the order of its fields, save that a key goes before its value. -/
def Node.slots (node : Node) : Forest :=
  match node.shape with
  | .arrayItem key value _ _ | .keyValue key value => [key, value]
  | _ => node.fields.flatMap Field.nodes

theorem Node.slots_perm_fields (node : Node) : node.slots.Perm (node.fields.flatMap Field.nodes) := by
  obtain ⟨pos, shape⟩ := node
  cases shape with
  | arrayItem key value byRef unpack => exact .swap value key []
  | keyValue key value => exact .swap value key []
  | _ => exact .refl _

/-- The children are the slots, but for some empty ones. -/
theorem Node.filterMap_slots (node : Node) :
    node.slots.filterMap id = node.children.filterMap id := by
  obtain ⟨pos, shape⟩ := node
  cases shape with
  | arrayItem key value byRef unpack => cases key <;> rfl
  | keyValue key value => cases key <;> rfl
  | arrayAccess base index => cases index <;> rfl
  | parameter name typeHint default => cases default <;> rfl
  | returnStmt expr => cases expr <;> rfl
  | ifStmt condition body elseIfs otherwise =>
      cases condition <;> cases otherwise <;>
        simp [slots, children, fields, ownFields, Field.nodes]
  | _ =>
      simp [slots, children, fields, ownFields, Field.nodes, Field.text, Field.texts, Field.flag]

theorem slotSize_otherwise (branch : Option (Else Node)) :
    slotSize (branch.map Node.ofElse) ≤ sizeOf branch := by
  cases branch with
  | none => simp
  | some branch =>
      cases branch
      simp [Node.ofElse]
      omega

theorem Node.forestSize_slots_lt (node : Node) : forestSize node.slots < sizeOf node := by
  obtain ⟨pos, shape⟩ := node
  cases shape <;>
    simp [slots, fields, ownFields, Field.nodes, Field.text, Field.texts, Field.flag] <;>
    grind [slotSize_le, forestSize_le, forestSize_elseIfs, slotSize_otherwise]

theorem walkStack_filterMap (descend : Node → Bool) (forest : Forest) :
    walkStack descend ((forest.filterMap id).map some) = walkStack descend forest := by
  induction forest with
  | nil => rfl
  | cons slot rest ih =>
      cases slot with
      | none => simpa using ih
      | some node => simpa using ih

theorem walkStack_slots (descend : Node → Bool) (node : Node) :
    walkStack descend node.slots = walkStack descend node.children := by
  rw [← walkStack_filterMap descend node.slots, node.filterMap_slots, walkStack_filterMap]

abbrev Path := List Nat

/-- The node that occurs in a forest at a path. -/
def nodeAt (forest : Forest) : Path → Option Node
  | [] => none
  | index :: path =>
    forest[index]?.join.bind fun node => if path = [] then some node else nodeAt node.slots path

/-- The nodes on the way to an occurrence: those at the proper parts of its path. -/
def Above (forest : Forest) (path : Path) (ancestor : Node) : Prop :=
  ∃ part, part <+: path ∧ part ≠ path ∧ nodeAt forest part = some ancestor

@[simp]
theorem nodeAt_nil (forest : Forest) : nodeAt forest [] = none := rfl

@[simp]
theorem nodeAt_no_roots (path : Path) : nodeAt [] path = none := by
  cases path <;> rfl

@[simp]
theorem nodeAt_succ (slot : Option Node) (rest : Forest) (index : Nat) (path : Path) :
    nodeAt (slot :: rest) ((index + 1) :: path) = nodeAt rest (index :: path) := rfl

@[simp]
theorem nodeAt_missing (rest : Forest) (path : Path) : nodeAt (none :: rest) (0 :: path) = none := rfl

@[simp]
theorem nodeAt_present (node : Node) (rest : Forest) (path : Path) :
    nodeAt (some node :: rest) (0 :: path) =
      if path = [] then some node else nodeAt node.slots path := by
  rw [nodeAt]
  rfl

/-- Whether all nodes on the way to an occurrence pass the test. -/
def Open (descend : Node → Bool) (forest : Forest) (path : Path) : Prop :=
  ∀ ancestor, Above forest path ancestor → descend ancestor = true

theorem above_cons (forest : Forest) (index : Nat) (path : Path) (ancestor : Node) :
    Above forest (index :: path) ancestor ↔
      ∃ part, part <+: path ∧ part ≠ path ∧ nodeAt forest (index :: part) = some ancestor := by
  constructor
  · rintro ⟨part, shorter, proper, found⟩
    rcases List.prefix_cons_iff.mp shorter with rfl | ⟨rest, rfl, inside⟩
    · simp at found
    · exact ⟨rest, inside, by simpa using proper, found⟩
  · rintro ⟨part, inside, proper, found⟩
    exact ⟨index :: part, List.cons_prefix_cons.mpr ⟨rfl, inside⟩, by simpa using proper, found⟩

theorem open_succ (descend : Node → Bool) (slot : Option Node) (rest : Forest) (index : Nat)
    (path : Path) :
    Open descend (slot :: rest) ((index + 1) :: path) ↔ Open descend rest (index :: path) := by
  simp only [Open, above_cons, nodeAt_succ]

theorem open_root (descend : Node → Bool) (forest : Forest) (index : Nat) :
    Open descend forest [index] := by
  intro ancestor above
  obtain ⟨part, inside, proper, found⟩ := (above_cons forest index [] ancestor).mp above
  exact absurd (List.prefix_nil.mp inside) proper

theorem open_below (descend : Node → Bool) (node : Node) (rest : Forest) (path : Path)
    (further : path ≠ []) :
    Open descend (some node :: rest) (0 :: path) ↔
      descend node = true ∧ Open descend node.slots path := by
  constructor
  · intro reached
    constructor
    · apply reached node
      rw [above_cons]
      exact ⟨[], List.nil_prefix, further.symm, by simp⟩
    · rintro ancestor ⟨part, inside, proper, found⟩
      apply reached ancestor
      rw [above_cons]
      refine ⟨part, inside, proper, ?_⟩
      have started : part ≠ [] := by
        rintro rfl
        simp at found
      simpa [started] using found
  · rintro ⟨passes, reached⟩ ancestor above
    obtain ⟨part, inside, proper, found⟩ := (above_cons _ _ _ _).mp above
    by_cases started : part = []
    · have same : node = ancestor := by simpa [started] using found
      rwa [← same]
    · exact reached ancestor ⟨part, inside, proper, by simpa [started] using found⟩

/-- The path to the same place once a slot stands before all others. -/
def Path.shift : Path → Path
  | [] => []
  | index :: path => (index + 1) :: path

/-- The same nodes at other paths. -/
def relabel (move : Path → Path) (listing : List (Path × Node)) : List (Path × Node) :=
  listing.map fun (path, node) => (move path, node)

@[simp]
theorem relabel_nodes (move : Path → Path) (listing : List (Path × Node)) :
    (relabel move listing).map Prod.snd = listing.map Prod.snd := by
  simp [relabel]

@[simp]
theorem relabel_paths (move : Path → Path) (listing : List (Path × Node)) :
    (relabel move listing).map Prod.fst = (listing.map Prod.fst).map move := by
  simp [relabel]

theorem mem_relabel (move : Path → Path) (listing : List (Path × Node)) (path : Path)
    (node : Node) :
    (path, node) ∈ relabel move listing ↔ ∃ start, (start, node) ∈ listing ∧ move start = path := by
  simp [relabel]

@[simp]
theorem mem_lowered (listing : List (Path × Node)) (path : Path) (node : Node) :
    (path, node) ∈ relabel (List.cons 0) listing ↔
      ∃ start, (start, node) ∈ listing ∧ 0 :: start = path :=
  mem_relabel _ listing path node

@[simp]
theorem nil_mem_shifted (listing : List (Path × Node)) (node : Node) :
    ([], node) ∈ relabel .shift listing ↔ ([], node) ∈ listing := by
  rw [mem_relabel]
  constructor
  · rintro ⟨start, listed, same⟩
    cases start with
    | nil => exact listed
    | cons index path => simp [Path.shift] at same
  · intro listed
    exact ⟨[], listed, rfl⟩

@[simp]
theorem zero_not_mem_shifted (listing : List (Path × Node)) (path : Path) (node : Node) :
    (0 :: path, node) ∉ relabel .shift listing := by
  rw [mem_relabel]
  rintro ⟨start, listed, same⟩
  cases start <;> simp [Path.shift] at same

@[simp]
theorem succ_mem_shifted (listing : List (Path × Node)) (index : Nat) (path : Path) (node : Node) :
    ((index + 1) :: path, node) ∈ relabel .shift listing ↔ (index :: path, node) ∈ listing := by
  rw [mem_relabel]
  constructor
  · rintro ⟨start, listed, same⟩
    cases start with
    | nil => simp [Path.shift] at same
    | cons first others =>
        obtain ⟨rfl, rfl⟩ : first = index ∧ others = path := by simpa [Path.shift] using same
        exact listed
  · intro listed
    exact ⟨index :: path, listed, rfl⟩

/-- The occurrences that are reached where only the nodes that pass the test are descended into. -/
def occurrences (descend : Node → Bool) : Forest → List (Path × Node)
  | [] => []
  | none :: rest => relabel .shift (occurrences descend rest)
  | some node :: rest =>
    let below := if descend node then occurrences descend node.slots else []
    ([0], node) :: relabel (List.cons 0) below ++ relabel .shift (occurrences descend rest)
termination_by forest => forestSize forest
decreasing_by
  · exact forestSize_tail_lt none rest
  · exact forestSize_lt_cons node node.forestSize_slots_lt rest
  · exact forestSize_tail_lt (some node) rest

theorem occurrences_nodes (descend : Node → Bool) (forest : Forest) :
    (occurrences descend forest).map Prod.snd = walkStack descend forest := by
  fun_induction occurrences descend forest with
  | case1 => simp
  | case2 rest ih => simpa using ih
  | case3 node rest listed below after =>
      rw [walkStack_some, ← walkStack_slots, ← below, ← after]
      by_cases passes : descend node = true <;> simp [listed, passes]

/-- The listing holds what occurs in the forest behind nodes that all pass the test. -/
theorem mem_occurrences (descend : Node → Bool) (forest : Forest) (path : Path) (found : Node) :
    (path, found) ∈ occurrences descend forest ↔
      nodeAt forest path = some found ∧ Open descend forest path := by
  fun_induction occurrences descend forest generalizing path found with
  | case1 => simp
  | case2 rest ih =>
      match path with
      | [] => simp [ih]
      | 0 :: path => simp
      | (index + 1) :: path => rw [succ_mem_shifted, ih, nodeAt_succ, open_succ]
  | case3 node rest listed below after =>
      -- A path leads to this root, to a slot below it, or to a later root.
      match path with
      | [] => simp [after]
      | [0] =>
          have unlisted : ([], found) ∉ listed := by
            by_cases passes : descend node = true <;> simp [listed, passes, below]
          simp [unlisted, open_root, eq_comm]
      | 0 :: next :: path =>
          rw [open_below descend node rest (next :: path) (by simp)]
          by_cases passes : descend node = true <;> simp [listed, passes, below]
      | (index + 1) :: path =>
          rw [nodeAt_succ, open_succ, ← after]
          simp

theorem occurrences_path_ne_nil (descend : Node → Bool) (forest : Forest) (path : Path)
    (listed : path ∈ (occurrences descend forest).map Prod.fst) : path ≠ [] := by
  rintro rfl
  obtain ⟨⟨path, node⟩, present, same⟩ := List.mem_map.mp listed
  subst same
  have found := ((mem_occurrences descend forest [] node).mp present).1
  simp at found

theorem Path.shift_lex {first second : Path} (before : List.Lex (· < ·) first second) :
    List.Lex (· < ·) first.shift second.shift := by
  cases before with
  | nil => exact .nil
  | rel smaller => exact .rel (Nat.succ_lt_succ smaller)
  | cons later => exact .cons later

theorem Path.zero_lex_shift (below : Path) {other : Path} (started : other ≠ []) :
    List.Lex (· < ·) (0 :: below) other.shift := by
  cases other with
  | nil => exact absurd rfl started
  | cons index path => exact .rel (Nat.succ_pos index)

/-- Paths stand in the listing in lexicographic order, each of them once. -/
theorem occurrences_ordered (descend : Node → Bool) (forest : Forest) :
    ((occurrences descend forest).map Prod.fst).Pairwise (List.Lex (· < ·)) := by
  fun_induction occurrences descend forest with
  | case1 => simp
  | case2 rest ih =>
      rw [relabel_paths]
      exact ih.map _ fun _ _ => Path.shift_lex
  | case3 node rest listed below after =>
      have lowered : ((listed.map Prod.fst).map (List.cons 0)).Pairwise (List.Lex (· < ·)) := by
        by_cases passes : descend node = true
        · simp only [listed, passes]
          exact below.map _ fun _ _ => .cons
        · simp [listed, passes]
      have inside : ∀ path ∈ listed.map Prod.fst, path ≠ [] := by
        by_cases passes : descend node = true
        · simp only [listed, passes]
          exact occurrences_path_ne_nil descend node.slots
        · simp [listed, passes]
      have shifted := after.map Path.shift fun _ _ => Path.shift_lex
      have beside := occurrences_path_ne_nil descend rest
      simp only [List.map_cons, List.map_append, relabel_paths, List.cons_append]
      rw [List.pairwise_cons, List.pairwise_append]
      refine ⟨?_, lowered, shifted, ?_⟩
      · intro path member
        rcases List.mem_append.mp member with member | member
        · obtain ⟨tail, present, rfl⟩ := List.mem_map.mp member
          cases tail with
          | nil => exact absurd rfl (inside [] present)
          | cons index tail => exact .cons .nil
        · obtain ⟨other, present, rfl⟩ := List.mem_map.mp member
          exact Path.zero_lex_shift [] (beside other present)
      · intro first earlier second later
        obtain ⟨tail, _, rfl⟩ := List.mem_map.mp earlier
        obtain ⟨other, present, rfl⟩ := List.mem_map.mp later
        exact Path.zero_lex_shift tail (beside other present)

theorem mem_walk (forest : Forest) (node : Node) :
    node ∈ walk forest none ↔ ∃ path, nodeAt forest path = some node := by
  rw [walk, ← occurrences_nodes, List.mem_map]
  constructor
  · rintro ⟨⟨path, found⟩, listed, rfl⟩
    exact ⟨path, ((mem_occurrences _ forest path found).mp listed).1⟩
  · rintro ⟨path, found⟩
    exact ⟨(path, node), (mem_occurrences _ forest path node).mpr ⟨found, fun _ _ => rfl⟩, rfl⟩

/-- A walk lists the occurrences whose ancestors all pass the test, each once and in the order of
their paths. The slots that paths count are all that the fields of a node hold. -/
theorem walk_lists_occurrences (forest : Forest) (descend : Option (Node → Bool)) :
    (∃ listing : List (Path × Node),
      walk forest descend = listing.map Prod.snd ∧
      (listing.map Prod.fst).Pairwise (List.Lex (· < ·)) ∧
      ∀ path node, (path, node) ∈ listing ↔
        nodeAt forest path = some node ∧
          ∀ test ∈ descend, ∀ ancestor, Above forest path ancestor → test ancestor = true) ∧
    ∀ node : Node, node.slots.Perm (node.fields.flatMap Field.nodes) := by
  refine ⟨⟨occurrences (descend.getD fun _ => true) forest, ?_, ?_, ?_⟩, Node.slots_perm_fields⟩
  · rw [occurrences_nodes, walk]
  · exact occurrences_ordered _ forest
  · intro path node
    rw [mem_occurrences]
    cases descend <;> simp [Open]

end PhpLint
