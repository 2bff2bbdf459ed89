import Mathlib.Data.List.Basic
import PhpLint.Outline.Printer
import PhpLint.Proofs.Preorder

/-! The expanded outline as a recursion over the forest: the entry of a node, then its groups, with
each node inside outlined as it is on its own. -/

namespace PhpLint.Outline

/-- A labelled group of nodes below a node. The label stands `depth` levels below the node and the
nodes one level below the label. A group without shown nodes is left out, unless it is a branch. -/
structure Group where
  depth : Int
  label : String
  branch : Bool
  nodes : Forest

namespace Group

def plain (label : String) (nodes : Forest) : Group := ⟨1, label, false, nodes⟩

/-- The groups of an `elseif` branch stand below a label of its own. -/
def elseIf (branch : ElseIf Node) : List Group :=
  [⟨1, "ElseIf", true, []⟩, ⟨2, "Condition", false, [branch.condition]⟩,
    ⟨2, "Body", false, branch.body⟩]

def otherwise (branch : Else Node) : Group := ⟨1, "Else", true, branch.body⟩

/-- The label, where the group is not left out. -/
def title (group : Group) (level : Int) : List Entry :=
  if group.branch ∨ shown group.nodes ≠ [] then [labelAt (level + group.depth) group.label] else []

end Group

/-- The groups below a node, in order. -/
def groups (node : Node) : List Group :=
  match node.shape with
  | .identifier _ | .variableRef _ | .stringLiteral _ | .integerLiteral _ | .floatLiteral _
  | .booleanLiteral _ | .nullLiteral | .comment _ | .property _ _ | .parameter _ _ _
  | .foreign _ _ _ => []
  | .interpolatedString parts => [.plain "Parts" parts]
  | .assignment left right | .binaryExpr left _ right => [.plain "Left" [left], .plain "Right" [right]]
  | .functionCall _ args | .methodCall _ _ args | .creation _ args => [.plain "Arguments" args]
  | .array elements _ => [.plain "Elements" elements]
  | .arrayItem key value _ _ | .keyValue key value => [.plain "Key" [key], .plain "Value" [value]]
  | .arrayAccess base index => [.plain "Variable" [base], .plain "Index" [index]]
  | .functionDecl _ params body | .functionDef _ _ _ _ params body =>
    [.plain "Parameters" params, .plain "Body" body]
  | .returnStmt expr | .expressionStmt expr => [.plain "Expression" [expr]]
  | .ifStmt condition body elseIfs otherwise =>
    [.plain "Condition" [condition], .plain "Then" body] ++ elseIfs.flatMap Group.elseIf ++
      otherwise.toList.map .otherwise
  | .elseIf condition body | .whileStmt condition body =>
    [.plain "Condition" [condition], .plain "Body" body]
  | .elseBranch body => [.plain "Body" body]
  | .classDecl _ _ _ properties methods =>
    [.plain "Properties" properties, .plain "Methods" methods]

theorem forestSize_elseIf_groups (branches : List (ElseIf Node)) :
    forestSize ((branches.flatMap Group.elseIf).flatMap Group.nodes) ≤ sizeOf branches := by
  induction branches with
  | nil => simp
  | cons branch rest ih =>
      obtain ⟨pos, condition, body⟩ := branch
      have conditionSize := slotSize_le condition
      have bodySize := forestSize_le body
      simp [Group.elseIf] at *
      omega

theorem forestSize_otherwise_groups (branch : Option (Else Node)) :
    forestSize ((branch.toList.map Group.otherwise).flatMap Group.nodes) ≤ sizeOf branch := by
  cases branch with
  | none => simp
  | some branch =>
      obtain ⟨pos, body⟩ := branch
      have bodySize := forestSize_le body
      simp [Group.otherwise]
      omega

theorem forestSize_groups_lt (node : Node) :
    forestSize ((groups node).flatMap Group.nodes) < sizeOf node := by
  obtain ⟨pos, shape⟩ := node
  cases shape <;>
    simp only [groups, Group.plain, List.flatMap_append, List.flatMap_cons, List.flatMap_nil,
      List.append_nil, forestSize_append, forestSize_cons, forestSize_nil] <;>
    simp <;>
    grind [slotSize_le, forestSize_le, forestSize_elseIf_groups, forestSize_otherwise_groups]

theorem forestSize_group_lt (node : Node) (group : Group) (member : group ∈ groups node) :
    forestSize group.nodes < sizeOf node := by
  obtain ⟨before, after, split⟩ := List.append_of_mem member
  have total := forestSize_groups_lt node
  rw [split, List.flatMap_append, List.flatMap_cons, forestSize_append, forestSize_append] at total
  omega

@[elab_as_elim]
theorem group_induction {motive : Forest → Prop} (nil : motive [])
    (missing : ∀ rest, motive rest → motive (none :: rest))
    (present : ∀ node rest, (∀ group ∈ groups node, motive group.nodes) → motive rest →
      motive (some node :: rest))
    (forest : Forest) : motive forest := by
  induction forest using forest_size_induction with
  | nil => exact nil
  | missing rest ih => exact missing rest ih
  | present node rest below after =>
      refine present node rest ?_ after
      intro group member
      exact below group.nodes (forestSize_group_lt node group member)

/-- The entries of a forest at a level. A shown node is followed by its groups, each with its label
and, one level below that, the entries of its nodes. -/
def outline (level : Int) : Forest → List Entry
  | [] => []
  | none :: rest => outline level rest
  | some node :: rest =>
    (if node.kind.isKnown then
      ⟨level, .node node⟩ :: (groups node).attach.flatMap fun ⟨group, _⟩ =>
        group.title level ++ outline (level + group.depth + 1) group.nodes
    else []) ++ outline level rest
termination_by forest => forestSize forest
decreasing_by
  · exact forestSize_tail_lt none rest
  · exact forestSize_lt_cons node (forestSize_group_lt node group ‹_›) rest
  · exact forestSize_tail_lt (some node) rest

/-- The entries of one node at a level. -/
def block (level : Int) (node : Node) : List Entry :=
  ⟨level, .node node⟩ :: (groups node).flatMap fun group =>
    group.title level ++ outline (level + group.depth + 1) group.nodes

theorem outline_nil (level : Int) : outline level [] = [] := by rw [outline]

theorem outline_none (level : Int) (rest : Forest) :
    outline level (none :: rest) = outline level rest := by rw [outline]

theorem outline_some (level : Int) (node : Node) (rest : Forest) :
    outline level (some node :: rest) =
      (if node.kind.isKnown then block level node else []) ++ outline level rest := by
  rw [outline, block]
  simp

/-- The label of a group and its nodes, not yet expanded. -/
def Group.entries (level : Int) (group : Group) : List Entry :=
  group.title level ++ nodesAt (level + group.depth + 1) group.nodes

theorem labelled_eq_entries (level depth : Int) (text : String) (forest : Forest) :
    labelled (level + depth) text forest = Group.entries level ⟨depth, text, false, forest⟩ := by
  cases present : shown forest with
  | nil => simp [labelled, nodesAt, present, Group.entries, Group.title]
  | cons node rest => simp [labelled, nodesAt, present, Group.entries, Group.title]

theorem elseIfEntries_eq_groups (level : Int) (branch : ElseIf Node) :
    sections.elseIfEntries level branch =
      (Group.elseIf branch).flatMap (Group.entries level) := by
  have heading : Group.entries level ⟨1, "ElseIf", true, []⟩ = [labelAt (level + 1) "ElseIf"] := by
    simp [Group.entries, Group.title, nodesAt, shown]
  simp [sections.elseIfEntries, Group.elseIf, labelled_eq_entries, heading]

theorem elseEntries_eq_group (level : Int) (branch : Else Node) :
    sections.elseEntries level branch = (Group.otherwise branch).entries level := by
  simp [sections.elseEntries, Group.otherwise, Group.entries, Group.title, Int.add_assoc]

/-- The entries directly below a node, read off its groups. -/
theorem sections_eq_groups (level : Int) (node : Node) :
    sections level node = (groups node).flatMap (Group.entries level) := by
  obtain ⟨pos, shape⟩ := node
  cases shape with
  | ifStmt condition body elseIfs otherwise =>
      have branches : elseIfs.flatMap (sections.elseIfEntries level) =
          (elseIfs.flatMap Group.elseIf).flatMap (Group.entries level) := by
        rw [funext (elseIfEntries_eq_groups level), List.flatMap_assoc]
      have last : otherwise.toList.flatMap (sections.elseEntries level) =
          (otherwise.toList.map Group.otherwise).flatMap (Group.entries level) := by
        rw [funext (elseEntries_eq_group level), List.flatMap_map]
      simp [sections, groups, labelled_eq_entries, Group.plain, branches, last]
  | _ => simp [sections, groups, labelled_eq_entries, Group.plain]

@[simp]
theorem expandStack_nil : expandStack [] = [] := by rw [expandStack]

@[simp]
theorem expandStack_append (left right : List Entry) :
    expandStack (left ++ right) = expandStack left ++ expandStack right := by
  fun_induction expandStack left with
  | case1 => rfl
  | case2 level text rest ih => rw [List.cons_append, expandStack, ih, List.cons_append]
  | case3 level node rest ih =>
      rw [List.cons_append, expandStack, ← List.append_assoc, ih, List.cons_append]

theorem expandStack_flatMap {α : Type} (items : List α) (entries : α → List Entry) :
    expandStack (items.flatMap entries) = items.flatMap fun item => expandStack (entries item) := by
  induction items with
  | nil => simp
  | cons item rest ih => simp [ih]

@[simp]
theorem expandStack_title (group : Group) (level : Int) :
    expandStack (group.title level) = group.title level := by
  unfold Group.title
  split
  · rw [labelAt, expandStack, expandStack_nil]
  · rw [expandStack_nil]

theorem expandStack_node (level : Int) (node : Node) :
    expandStack [⟨level, .node node⟩] =
      ⟨level, .node node⟩ :: (groups node).flatMap fun group =>
        group.title level ++ expandStack (nodesAt (level + group.depth + 1) group.nodes) := by
  rw [expandStack, List.append_nil, sections_eq_groups, expandStack_flatMap]
  simp [Group.entries]

theorem nodesAt_some (level : Int) (node : Node) (rest : Forest) :
    nodesAt level (some node :: rest) =
      (if node.kind.isKnown then [⟨level, .node node⟩] else []) ++ nodesAt level rest := by
  by_cases known : node.kind.isKnown <;> simp [nodesAt, shown, known]

/-- Expanding a stack of roots gives the recursive outline. -/
theorem treeEntries_eq_outline (level : Int) (forest : Forest) :
    treeEntries level forest = outline level forest := by
  unfold treeEntries
  induction forest using group_induction generalizing level with
  | nil => simp [nodesAt, shown, outline_nil]
  | missing rest ih => simpa [nodesAt, shown, outline_none] using ih level
  | present node rest below after =>
      rw [nodesAt_some, expandStack_append, after, outline_some]
      congr 1
      split
      · rw [expandStack_node, block]
        congr 1
        apply List.flatMap_congr
        intro group member
        rw [below group member]
      · exact expandStack_nil

/-- The same entry some levels deeper. -/
def Entry.shift (offset : Int) (entry : Entry) : Entry := ⟨entry.level + offset, entry.item⟩

theorem title_shift (group : Group) (level offset : Int) :
    group.title (level + offset) = (group.title level).map (Entry.shift offset) := by
  unfold Group.title
  split
  · simp only [labelAt, Entry.shift, List.map_cons, List.map_nil]
    congr 2
    omega
  · rfl

/-- An outline at another level has the same entries, all deeper by the same number of levels. -/
theorem outline_shift (level offset : Int) (forest : Forest) :
    outline (level + offset) forest = (outline level forest).map (Entry.shift offset) := by
  induction forest using group_induction generalizing level with
  | nil => simp [outline_nil]
  | missing rest ih => rw [outline_none, outline_none, ih]
  | present node rest below after =>
      rw [outline_some, outline_some, List.map_append, after]
      congr 1
      split
      · rw [block, block, List.map_cons, List.map_flatMap]
        congr 1
        apply List.flatMap_congr
        intro group member
        -- The offset moves past the depth of the group, to where the hypothesis has it.
        have regroup : level + offset + group.depth + 1 = level + group.depth + 1 + offset := by omega
        rw [List.map_append, ← title_shift, regroup, below group member]
      · rfl

/-- Wherever a node has an entry, all entries of the node on its own follow. -/
def Blocks (entries : List Entry) : Prop :=
  ∀ level node after, (⟨level, .node node⟩ :: after) <:+ entries →
    outline level [some node] <+: ⟨level, .node node⟩ :: after

theorem blocks_nil : Blocks [] := by
  intro level node after ending
  simp at ending

theorem blocks_cons {first : Entry} {rest : List Entry}
    (here : ∀ level node, first = ⟨level, .node node⟩ →
      outline level [some node] <+: first :: rest)
    (later : Blocks rest) : Blocks (first :: rest) := by
  intro level node after ending
  rcases List.suffix_cons_iff.mp ending with same | inside
  · rw [same]
    exact here level node (List.cons.inj same).1.symm
  · exact later level node after inside

theorem blocks_append {left right : List Entry} (first : Blocks left) (second : Blocks right) :
    Blocks (left ++ right) := by
  induction left with
  | nil => exact second
  | cons entry rest ih =>
      refine blocks_cons ?_ (ih fun level node after ending => ?_)
      · rintro level node rfl
        exact (first level node rest (List.suffix_refl _)).trans (List.prefix_append _ _)
      · exact first level node after (ending.trans (List.suffix_cons _ _))

theorem blocks_flatMap {α : Type} {items : List α} {entries : α → List Entry}
    (each : ∀ item ∈ items, Blocks (entries item)) : Blocks (items.flatMap entries) := by
  induction items with
  | nil => exact blocks_nil
  | cons item rest ih =>
      rw [List.flatMap_cons]
      exact blocks_append (each item (by simp)) (ih fun other member => each other (by simp [member]))

theorem blocks_title (group : Group) (level : Int) : Blocks (group.title level) := by
  unfold Group.title
  split
  · refine blocks_cons ?_ blocks_nil
    intro level node same
    simp [labelAt] at same
  · exact blocks_nil

theorem outline_single (level : Int) (node : Node) (known : node.kind.isKnown = true) :
    outline level [some node] = block level node := by
  rw [outline_some, if_pos known, outline_nil, List.append_nil]

theorem outline_blocks (level : Int) (forest : Forest) : Blocks (outline level forest) := by
  induction forest using group_induction generalizing level with
  | nil =>
      rw [outline_nil]
      exact blocks_nil
  | missing rest ih =>
      rw [outline_none]
      exact ih level
  | present node rest below after =>
      rw [outline_some]
      refine blocks_append ?_ (after level)
      split
      next known =>
        refine blocks_cons ?_ (blocks_flatMap fun group member => ?_)
        · intro level' node' same
          obtain ⟨rfl, rfl⟩ : level = level' ∧ node = node' := by simpa using same
          rw [outline_single level node known]
          exact List.prefix_refl _
        · exact blocks_append (blocks_title group level) (below group member _)
      next => exact blocks_nil

end PhpLint.Outline
