import PhpLint.Proofs.Deletions
import PhpLint.Proofs.Printing

/-! Lines of their own. An expanded outline has a line for each node that a walk meets, save those at
places that outlines keep out of. -/

namespace PhpLint.Outline

/-- The places below a node that outlines pass over: all in the receiver of a method call, which is
its first slot, and in the default of a parameter. The branches of a conditional, in the slots after
its condition and its body, have a label instead of a line; what is inside them is not passed over. -/
def passesOver (node : Node) (below : Path) : Bool :=
  match node.shape, below with
  | .methodCall _ _ _, 0 :: _ => true
  | .parameter _ _ _, _ :: _ => true
  | .ifStmt _ body _ _, [index] => body.length < index
  | _, _ => false

@[simp]
theorem passesOver_nil (node : Node) : passesOver node [] = false := by
  simp [passesOver]

/-- The places at and below a node that have no line: all if its kind is foreign. -/
def keepsOut (node : Node) (below : Path) : Bool := !node.kind.isKnown || passesOver node below

/-- The node of an entry that is no label. -/
def Entry.node? (entry : Entry) : Option Node :=
  match entry.item with
  | .label _ => none
  | .node node => some node

/-- The nodes that have an entry in the outline of a forest. -/
def lined (forest : Forest) : List Node := (outline 0 forest).filterMap Entry.node?

theorem lined_eq (level : Int) (forest : Forest) :
    (outline level forest).filterMap Entry.node? = lined forest := by
  have shifted := outline_shift 0 level forest
  rw [Int.zero_add] at shifted
  rw [shifted, List.filterMap_map]
  rfl

theorem outline_append (level : Int) (left right : Forest) :
    outline level (left ++ right) = outline level left ++ outline level right := by
  induction left with
  | nil => rw [outline_nil, List.nil_append, List.nil_append]
  | cons slot rest ih =>
      cases slot with
      | none => rw [List.cons_append, outline_none, outline_none, ih]
      | some node => rw [List.cons_append, outline_some, outline_some, ih, List.append_assoc]

@[simp]
theorem lined_nil : lined [] = [] := by rw [lined, outline_nil, List.filterMap_nil]

theorem lined_none (rest : Forest) : lined (none :: rest) = lined rest := by
  rw [lined, outline_none, lined]

theorem lined_append (left right : Forest) : lined (left ++ right) = lined left ++ lined right := by
  rw [lined, outline_append, List.filterMap_append, lined, lined]

theorem lined_flatMap {α : Type} (items : List α) (forests : α → Forest) :
    lined (items.flatMap forests) = items.flatMap fun item => lined (forests item) := by
  induction items with
  | nil => simp
  | cons item rest ih => rw [List.flatMap_cons, lined_append, ih, List.flatMap_cons]

theorem title_filterMap (group : Group) (level : Int) :
    (group.title level).filterMap Entry.node? = [] := by
  unfold Group.title
  split <;> rfl

theorem lined_some (node : Node) (rest : Forest) :
    lined (some node :: rest) =
      (if node.kind.isKnown then node :: lined ((groups node).flatMap Group.nodes) else []) ++
        lined rest := by
  rw [lined, outline_some, List.filterMap_append, ← lined]
  congr 1
  split
  · rw [block, List.filterMap_cons, List.filterMap_flatMap, lined_flatMap]
    simp only [Entry.node?, List.filterMap_append, title_filterMap, List.nil_append, lined_eq]
  · rfl

/-- The branches of a conditional as nodes of their own. -/
def branches (elseIfs : List (ElseIf Node)) (otherwise : Option (Else Node)) : Forest :=
  elseIfs.map (some ∘ Node.ofElseIf) ++ [otherwise.map Node.ofElse]

theorem slots_methodCall {node : Node} {receiver : Option Node} {method : String} {args : Forest}
    (shape : node.shape = .methodCall receiver method args) : node.slots = [receiver] ++ args := by
  simp [Node.slots, Node.fields, Node.ownFields, Field.nodes, Field.text, shape]

theorem slots_ifStmt {node : Node} {condition : Option Node} {body : Forest}
    {elseIfs : List (ElseIf Node)} {otherwise : Option (Else Node)}
    (shape : node.shape = .ifStmt condition body elseIfs otherwise) :
    node.slots = condition :: body ++ branches elseIfs otherwise := by
  simp [Node.slots, Node.fields, Node.ownFields, Field.nodes, branches, shape]

theorem slots_ofElseIf (branch : ElseIf Node) :
    (Node.ofElseIf branch).slots = branch.condition :: branch.body := by
  simp [Node.ofElseIf, Node.slots, Node.fields, Node.ownFields, Field.nodes]

theorem slots_ofElse (branch : Else Node) : (Node.ofElse branch).slots = branch.body := by
  simp [Node.ofElse, Node.slots, Node.fields, Node.ownFields, Field.nodes]

/-- Where nothing below a node is passed over, its groups have all its slots. -/
theorem slots_eq_groups (node : Node) (known : node.kind.isKnown = true)
    (nothing : ∀ path, passesOver node path = false) :
    node.slots = (groups node).flatMap Group.nodes := by
  obtain ⟨pos, shape⟩ := node
  cases shape with
  | methodCall receiver method args => exact absurd (nothing [0]) (by simp [passesOver])
  | parameter name typeHint default => exact absurd (nothing [0]) (by simp [passesOver])
  | ifStmt condition body elseIfs otherwise =>
      exact absurd (nothing [body.length + 1]) (by simp [passesOver])
  | foreign kind text children => exact absurd known (by simp [Node.kind, Shape.kind, Kind.isKnown])
  | _ =>
      simp [Node.slots, Node.fields, Node.ownFields, Field.nodes, Field.text, Field.texts, Field.flag,
        groups, Group.plain]

theorem lined_branches (elseIfs : List (ElseIf Node)) (otherwise : Option (Else Node)) :
    ((branches elseIfs otherwise).filterMap id).flatMap (fun branch => lined branch.slots) =
      lined ((elseIfs.flatMap Group.elseIf ++ otherwise.toList.map Group.otherwise).flatMap
        Group.nodes) := by
  have nodes : (elseIfs.map (some ∘ Node.ofElseIf)).filterMap id = elseIfs.map Node.ofElseIf := by
    simp [List.filterMap_map]
  rw [List.flatMap_append, lined_append, branches, List.filterMap_append, List.flatMap_append, nodes]
  congr 1
  · rw [List.flatMap_map, List.flatMap_assoc, lined_flatMap]
    apply List.flatMap_congr
    intro branch _
    simp [slots_ofElseIf, Group.elseIf]
  · cases otherwise with
    | none => simp
    | some branch => simp [slots_ofElse, Group.otherwise]

/-- In all forests that fit below a node, the nodes with a line are those at places not kept out. -/
def LinedBelow (node : Node) : Prop :=
  ∀ below, forestSize below < sizeOf node → kept (hidden keepsOut below) below = lined below

theorem keepsOut_of_known {node : Node} (known : node.kind.isKnown = true) :
    keepsOut node = passesOver node := by
  funext path
  rw [keepsOut, known, Bool.not_true, Bool.false_or]

theorem keptBelow_open {node : Node} (nothing : ∀ path, keepsOut node path = false)
    (lines : kept (hidden keepsOut node.slots) node.slots = lined node.slots) :
    keptBelow keepsOut node = lined node.slots := by
  rw [keptBelow, ← lines]
  simp only [nothing, Bool.false_or]

theorem keptBelow_methodCall {node : Node} {receiver : Option Node} {method : String}
    {args : Forest} (shape : node.shape = .methodCall receiver method args)
    (smaller : LinedBelow node) : keptBelow keepsOut node = lined args := by
  have known : node.kind.isKnown = true := by rw [Node.kind, shape]; rfl
  have size := node.forestSize_slots_lt
  rw [slots_methodCall shape, forestSize_append] at size
  rw [keptBelow, keepsOut_of_known known, slots_methodCall shape, kept_append, kept_eq_nil,
    List.nil_append, ← smaller args (by omega)]
  · apply kept_congr
    intro index path _
    rw [hidden_append_right]
    simp [passesOver, shape, Path.shiftBy]
  · intro index path inside
    obtain rfl : index = 0 := by simpa using inside
    simp [passesOver, shape]

theorem keepsOut_branch {elseIfs : List (ElseIf Node)} {otherwise : Option (Else Node)}
    {branch : Node} (member : some branch ∈ branches elseIfs otherwise) (path : Path) :
    keepsOut branch path = false := by
  simp only [branches, List.mem_append, List.mem_map, List.mem_singleton, Function.comp_apply,
    Option.some.injEq] at member
  rcases member with ⟨elseIf, _, rfl⟩ | last
  · rfl
  · obtain ⟨other, _, rfl⟩ := Option.map_eq_some_iff.mp last.symm
    rfl

theorem keptBelow_ifStmt {node : Node} {condition : Option Node} {body : Forest}
    {elseIfs : List (ElseIf Node)} {otherwise : Option (Else Node)}
    (shape : node.shape = .ifStmt condition body elseIfs otherwise) (smaller : LinedBelow node) :
    keptBelow keepsOut node = lined (condition :: body) ++
      ((branches elseIfs otherwise).filterMap id).flatMap fun branch => lined branch.slots := by
  have known : node.kind.isKnown = true := by rw [Node.kind, shape]; rfl
  have size := node.forestSize_slots_lt
  have slots := slots_ifStmt shape
  rw [slots, forestSize_append] at size
  have front : kept (fun path => passesOver node path || hidden keepsOut node.slots path)
      (condition :: body) = lined (condition :: body) := by
    rw [← smaller (condition :: body) (by omega)]
    apply kept_congr
    intro index path inside
    have early : ¬body.length < index := by simpa [Nat.lt_succ_iff] using inside
    rw [slots, hidden_append_left keepsOut _ inside]
    cases path <;> simp [passesOver, shape, early]
  -- Behind the body only the branches themselves are passed over, which are the roots there.
  have back : kept (fun path => passesOver node (Path.shiftBy (condition :: body).length path) ||
      hidden keepsOut node.slots (Path.shiftBy (condition :: body).length path))
      (branches elseIfs otherwise) =
      kept (fun path => path.length == 1 || hidden keepsOut (branches elseIfs otherwise) path)
        (branches elseIfs otherwise) := by
    apply kept_congr
    intro index path _
    rw [slots, hidden_append_right]
    have late : body.length < index + (body.length + 1) := by omega
    cases path <;> simp [passesOver, shape, Path.shiftBy, late]
  have inside : ∀ branch ∈ (branches elseIfs otherwise).filterMap id,
      keptBelow keepsOut branch = lined branch.slots := by
    intro branch member
    have present : some branch ∈ branches elseIfs otherwise := by simpa using member
    have whole : sizeOf branch ≤ _ := slotSize_le_forestSize present
    have part := branch.forestSize_slots_lt
    exact keptBelow_open (keepsOut_branch present) (smaller branch.slots (by omega))
  calc
    keptBelow keepsOut node =
        kept (fun path => passesOver node path || hidden keepsOut node.slots path)
          (condition :: body ++ branches elseIfs otherwise) := by
      rw [keptBelow, keepsOut_of_known known, slots]
    _ = lined (condition :: body) ++
        ((branches elseIfs otherwise).filterMap id).flatMap (keptBelow keepsOut) := by
      rw [kept_append, front, back, kept_below_roots]
    _ = _ := by rw [List.flatMap_congr inside]

/-- What is left below a node of a known kind is lined up in its groups. -/
theorem keptBelow_known {node : Node} (known : node.kind.isKnown = true)
    (smaller : LinedBelow node) :
    keptBelow keepsOut node = lined ((groups node).flatMap Group.nodes) := by
  have usual (nothing : ∀ path, passesOver node path = false) :
      keptBelow keepsOut node = lined ((groups node).flatMap Group.nodes) := by
    rw [← slots_eq_groups node known nothing]
    exact keptBelow_open (keepsOut_of_known known ▸ nothing)
      (smaller node.slots node.forestSize_slots_lt)
  cases shape : node.shape with
  | methodCall receiver method args =>
      rw [keptBelow_methodCall shape smaller]
      simp [groups, shape, Group.plain]
  | parameter name typeHint default =>
      rw [keptBelow, keepsOut_of_known known, kept_eq_nil]
      · simp [groups, shape]
      · simp [passesOver, shape]
  | ifStmt condition body elseIfs otherwise =>
      rw [keptBelow_ifStmt shape smaller, lined_branches, ← lined_append]
      simp [groups, shape, Group.plain]
  | _ =>
      apply usual
      simp [passesOver, shape]

/-- The nodes with a line are those of the walk that are at no place kept out. -/
theorem kept_eq_lined (forest : Forest) : kept (hidden keepsOut forest) forest = lined forest := by
  -- All that fits below a node, not only its children: branches are entered two levels at a time.
  induction forest using forest_size_induction with
  | nil => simp
  | missing rest ih => rw [kept_hidden_none, lined_none, ih]
  | present node rest below after =>
      rw [kept_hidden_some, lined_some, after]
      congr 1
      by_cases known : node.kind.isKnown = true
      · rw [keptBelow_known known below, keepsOut_of_known known, passesOver_nil, if_pos known]
        rfl
      · have foreign : ∀ path, keepsOut node path = true := by simp [keepsOut, known]
        have nothing : keptBelow keepsOut node = [] :=
          kept_eq_nil fun index path _ => by rw [foreign, Bool.true_or]
        rw [nothing, foreign, if_neg known]
        rfl

theorem filter_not_hidden (forest : Forest) :
    ((occurrences (fun _ => true) forest).filter fun (path, _) => ¬Hidden keepsOut forest path).map
      Prod.snd = lined forest := by
  rw [← kept_hidden, kept_eq_lined]

section Lines

variable (limits : Limits)

theorem exists_line_iff (unit : String) (entry : Entry) :
    (∃ line, entry.line limits unit = .ok line) ↔
      (∃ text, entry.item.text limits = .ok text) ∧ Indentable limits unit entry.level := by
  simp only [line_eq_ok_iff]
  constructor
  · rintro ⟨line, text, said, fits, -⟩
    exact ⟨⟨text, said⟩, fits⟩
  · rintro ⟨⟨text, said⟩, fits⟩
    exact ⟨_, text, said, fits, rfl⟩

/-- The lines written are those of the first entries, also when writing stops early. -/
theorem write_reads (unit : String) (entries : List Entry) :
    List.Forall₂ (Reads limits unit) (entries.take (write limits unit entries).lines.length)
      (write limits unit entries).lines := by
  induction entries with
  | nil => exact .nil
  | cons entry rest ih =>
      rw [write]
      cases found : entry.line limits unit with
      | error error => exact .nil
      | ok line =>
          obtain ⟨text, said, -, same⟩ := (line_eq_ok_iff limits unit entry line).mp found
          exact .cons ⟨text, says_of_text limits entry.item text said, same.symm⟩ ih

/-- Writing that stops early has a line less than there are entries, at least. -/
theorem write_whole_iff (unit : String) (entries : List Entry) :
    (write limits unit entries).failure = none ↔
      (write limits unit entries).lines.length = entries.length := by
  induction entries with
  | nil => simp [write]
  | cons entry rest ih =>
      rw [write]
      cases entry.line limits unit with
      | error error => simp
      | ok line => simp [Printed.after, ih]

theorem texts_iff (entries : List Entry) :
    (∀ entry ∈ entries, ∃ text, entry.item.text limits = .ok text) ↔
      ∀ node ∈ entries.filterMap Entry.node?, ∃ text, node.description limits = .ok text := by
  constructor
  · intro texts node member
    obtain ⟨⟨level, item⟩, listed, found⟩ := List.mem_filterMap.mp member
    cases item with
    | label text => simp [Entry.node?] at found
    | node other =>
        obtain rfl : other = node := by simpa [Entry.node?] using found
        exact texts _ listed
  · rintro described ⟨level, item⟩ listed
    cases item with
    | label text => exact ⟨text, rfl⟩
    | node node => exact described node (List.mem_filterMap.mpr ⟨_, listed, rfl⟩)

theorem treeEntries_nodes (indent : Int) (forest : Forest) :
    (treeEntries indent forest).filterMap Entry.node? = lined forest := by
  rw [treeEntries_eq_outline, lined_eq]

/-- An expanded outline is printed to the end exactly if every node with a line has a description and
every level can be indented. -/
theorem printTree_finishes_iff (layout : Layout) (forest : Forest) :
    (printTree limits layout forest).failure = none ↔
      (∀ node ∈ lined forest, ∃ text, node.description limits = .ok text) ∧
        ∀ entry ∈ treeEntries layout.indent forest, Indentable limits layout.unit entry.level := by
  rw [← treeEntries_nodes layout.indent, ← texts_iff, ← forall₂_and]
  simp only [← exists_line_iff]
  exact write_failure_eq_none_iff limits layout.unit (treeEntries layout.indent forest)

/-- In an expanded outline the nodes of the walk have one entry each, in the order of the walk, save
those at places kept out of. The lines are those of the entries, of all of them unless printing fails;
and it fails only for a description that fails or a level that cannot be indented. -/
theorem printTree_lines_follow_walk (layout : Layout) (forest : Forest) :
    let walked := occurrences (fun _ => true) forest
    let remaining := walked.filter fun (path, _) => ¬Hidden keepsOut forest path
    let entries := treeEntries layout.indent forest
    let printed := printTree limits layout forest
    (walked.map Prod.snd = walk forest none ∧
      ∀ path node, (path, node) ∈ walked ↔ nodeAt forest path = some node) ∧
    entries.filterMap Entry.node? = remaining.map Prod.snd ∧
    List.Forall₂ (Reads limits layout.unit) (entries.take printed.lines.length) printed.lines ∧
    (printed.failure = none ↔ printed.lines.length = entries.length) ∧
    (printed.failure = none ↔
      (∀ place ∈ remaining, ∃ text, place.2.description limits = .ok text) ∧
        ∀ entry ∈ entries, Indentable limits layout.unit entry.level) := by
  intro walked remaining entries printed
  refine ⟨⟨occurrences_nodes _ forest, ?_⟩, ?_, write_reads limits layout.unit entries,
    write_whole_iff limits layout.unit entries, ?_⟩
  · intro path node
    rw [mem_occurrences]
    simp [Open]
  · rw [filter_not_hidden, treeEntries_nodes]
  · rw [printTree_finishes_iff, ← filter_not_hidden, List.forall_mem_map]

end Lines

/-- One level too many for 64 bits: the array has its line, its element has none. -/
theorem printTree_stops_inside_array :
    let null : Node := ⟨.unknown, .nullLiteral⟩
    let array : Node := ⟨.unknown, .array [some null] false⟩
    let forest : Forest := [some array]
    let layout : Layout := ⟨9223372036854775807, ""⟩
    let printed := printTree .endless layout forest
    let remaining := (occurrences (fun _ => true) forest).filter fun (path, _) =>
      ¬Hidden keepsOut forest path
    (∀ node ∈ walk forest none, ∃ text, node.description .endless = .ok text) ∧
    remaining.map Prod.snd = [array, null] ∧
    printed = ⟨["Array(Null @ 0:0) @ 0:0\n"], some (.indentation .levelRange)⟩ ∧
    ((treeEntries layout.indent forest).take printed.lines.length).filterMap Entry.node? ≠
      remaining.map Prod.snd := by
  intro null array forest layout printed remaining
  have walked : walk forest none = [array, null] := by
    simp [walk, forest, array, null, Node.children]
  have entries : treeEntries layout.indent forest =
      [⟨9223372036854775807, .node array⟩, ⟨9223372036854775808, .label "Elements:"⟩,
        ⟨9223372036854775809, .node null⟩] := by
    rw [treeEntries_eq_outline]
    simp [forest, array, null, layout, outline_some, outline_nil, block, groups, Group.plain,
      Group.title, labelAt, shown, Node.kind, Shape.kind, Kind.isKnown]
  have left : remaining.map Prod.snd = [array, null] := by
    rw [filter_not_hidden, ← lined_eq layout.indent, ← treeEntries_eq_outline, entries]
    rfl
  have stopped : printed = ⟨["Array(Null @ 0:0) @ 0:0\n"], some (.indentation .levelRange)⟩ := by
    rw [show printed = write .endless layout.unit (treeEntries layout.indent forest) from rfl, entries]
    decide
  refine ⟨?_, left, stopped, ?_⟩
  · rw [walked]
    intro node member
    simp only [List.mem_cons, List.not_mem_nil, or_false] at member
    rcases member with rfl | rfl <;> exact ⟨_, rfl⟩
  · rw [left, stopped, entries]
    intro same
    cases same

section NotPassedOver

variable (limits : Limits)

/-- A line that shows a node by its description, at some level. -/
def OwnLine (unit : String) (node : Node) (line : String) : Prop :=
  ∃ level text, node.description limits = .ok text ∧ line = margin unit level ++ text ++ "\n"

theorem ownLines_of_reads {limits : Limits} {unit : String} {entries : List Entry} {lines : List String}
    (written : List.Forall₂ (Reads limits unit) entries lines) :
    ∃ own, own.Sublist lines ∧
      List.Forall₂ (OwnLine limits unit) (entries.filterMap Entry.node?) own := by
  induction written with
  | nil => exact ⟨[], .slnil, .nil⟩
  | @cons entry line rest later reads _ ih =>
      obtain ⟨own, among, each⟩ := ih
      obtain ⟨level, item⟩ := entry
      obtain ⟨text, said, same⟩ := reads
      cases item with
      | label label => exact ⟨own, among.cons line, each⟩
      | node node => exact ⟨line :: own, among.cons_cons line, .cons ⟨level, text, said, same⟩ each⟩

theorem hidden_keepsOut_iff {forest : Forest}
    (known : ∀ node ∈ walk forest none, node.kind.isKnown = true) (path : Path) :
    Hidden keepsOut forest path ↔ Hidden passesOver forest path := by
  have same : ∀ part node, nodeAt forest part = some node → ∀ below,
      keepsOut node below = passesOver node below := by
    intro part node reached below
    simp [keepsOut, known node ((mem_walk forest node).mpr ⟨part, reached⟩)]
  constructor
  · rintro ⟨part, below, node, joined, reached, out⟩
    exact ⟨part, below, node, joined, reached, by rwa [same part node reached] at out⟩
  · rintro ⟨part, below, node, joined, reached, out⟩
    exact ⟨part, below, node, joined, reached, by rwa [same part node reached]⟩

/-- A forest of known kinds is printed to the end, if its descriptions and levels allow it, and each
place that is not passed over has its own line, in the order of the walk. -/
theorem printTree_lines_nodes_not_passed_over (layout : Layout) (forest : Forest)
    (known : ∀ node ∈ walk forest none, node.kind.isKnown = true)
    (described : ∀ path node, nodeAt forest path = some node → ¬Hidden passesOver forest path →
      ∃ text, node.description limits = .ok text)
    (indentable : ∀ entry ∈ treeEntries layout.indent forest,
      Indentable limits layout.unit entry.level) :
    (printTree limits layout forest).failure = none ∧
    ∃ own, own.Sublist (printTree limits layout forest).lines ∧
      List.Forall₂ (fun place line => OwnLine limits layout.unit place.2 line)
        ((occurrences (fun _ => true) forest).filter fun (path, _) =>
          ¬Hidden passesOver forest path) own := by
  have nodes : ((occurrences (fun _ => true) forest).filter fun (path, _) =>
      ¬Hidden passesOver forest path).map Prod.snd = lined forest := by
    simp only [← hidden_keepsOut_iff known]
    exact filter_not_hidden forest
  have finished : (printTree limits layout forest).failure = none := by
    rw [printTree_finishes_iff, ← nodes, List.forall_mem_map]
    refine ⟨?_, indentable⟩
    rintro ⟨path, node⟩ member
    obtain ⟨listed, shown⟩ := List.mem_filter.mp member
    exact described path node ((mem_occurrences _ forest path node).mp listed).1 (by simpa using shown)
  have written := write_reads limits layout.unit (treeEntries layout.indent forest)
  have whole := (write_whole_iff limits layout.unit (treeEntries layout.indent forest)).mp finished
  rw [whole, List.take_length] at written
  obtain ⟨own, among, each⟩ := ownLines_of_reads written
  rw [treeEntries_nodes, ← nodes, List.forall₂_map_left_iff] at each
  exact ⟨finished, own, among, each⟩

end NotPassedOver

def calledUser : Node := ⟨⟨1, 5, 4⟩, .variableRef "user"⟩

def emptyElse : Else Node := ⟨⟨2, 1, 20⟩, []⟩

def defaultNull : Node := ⟨⟨3, 15, 40⟩, .nullLiteral⟩

/-- A condition with a receiver, an `else` branch and a parameter with a default. -/
def partlyShown : Forest :=
  [some ⟨⟨1, 1, 0⟩, .ifStmt (some ⟨⟨1, 5, 4⟩, .methodCall (some calledUser) "ok" []⟩) [] []
    (some emptyElse)⟩,
    some ⟨⟨3, 1, 26⟩, .functionDecl "f"
      [some ⟨⟨3, 10, 35⟩, .parameter "x" "" (some defaultNull)⟩] []⟩]

theorem walk_partlyShown :
    walk partlyShown none =
      [⟨⟨1, 1, 0⟩, .ifStmt (some ⟨⟨1, 5, 4⟩, .methodCall (some calledUser) "ok" []⟩) [] []
        (some emptyElse)⟩,
        ⟨⟨1, 5, 4⟩, .methodCall (some calledUser) "ok" []⟩, calledUser, .ofElse emptyElse,
        ⟨⟨3, 1, 26⟩, .functionDecl "f"
          [some ⟨⟨3, 10, 35⟩, .parameter "x" "" (some defaultNull)⟩] []⟩,
        ⟨⟨3, 10, 35⟩, .parameter "x" "" (some defaultNull)⟩, defaultNull] := by
  simp [walk, partlyShown, calledUser, emptyElse, defaultNull, Node.ofElse, Node.children]

theorem described_partlyShown (node : Node) (met : node ∈ walk partlyShown none) :
    node.kind.isKnown = true ∧ ∃ text, node.description .endless = .ok text := by
  simp only [walk_partlyShown, List.mem_cons, List.not_mem_nil, or_false] at met
  rcases met with rfl | rfl | rfl | rfl | rfl | rfl | rfl <;> exact ⟨rfl, _, rfl⟩

theorem treeEntries_partlyShown :
    treeEntries 0 partlyShown =
      [⟨0, .node ⟨⟨1, 1, 0⟩, .ifStmt
          (some ⟨⟨1, 5, 4⟩, .methodCall (some calledUser) "ok" []⟩) [] [] (some emptyElse)⟩⟩,
        ⟨1, .label "Condition:"⟩,
        ⟨2, .node ⟨⟨1, 5, 4⟩, .methodCall (some calledUser) "ok" []⟩⟩, ⟨1, .label "Else:"⟩,
        ⟨0, .node ⟨⟨3, 1, 26⟩, .functionDecl "f"
          [some ⟨⟨3, 10, 35⟩, .parameter "x" "" (some defaultNull)⟩] []⟩⟩,
        ⟨1, .label "Parameters:"⟩,
        ⟨2, .node ⟨⟨3, 10, 35⟩, .parameter "x" "" (some defaultNull)⟩⟩] := by
  rw [treeEntries_eq_outline]
  simp [partlyShown, emptyElse, outline_some, outline_nil, block, groups, Group.plain,
    Group.otherwise, Group.title, labelAt, shown, Node.kind, Shape.kind, Kind.isKnown]

theorem printTree_partlyShown :
    printTree .endless .default partlyShown =
      ⟨["If(Cond: MethodCall(ok) @ 1:5) @ 1:1\n", "  Condition:\n", "    MethodCall(ok) @ 1:5\n",
        "  Else:\n", "Function(f) @ 3:1\n", "  Parameters:\n", "    $x = Null @ 3:15 @ 3:10\n"],
        none⟩ := by
  rw [printTree, show Layout.default.indent = 0 from rfl, treeEntries_partlyShown]
  decide

theorem not_ownLine {limits : Limits} {unit line : String} {node : Node} (text : String)
    (described : node.description limits = .ok text) (other : ¬(text ++ "\n").toList <:+ line.toList) :
    ¬OwnLine limits unit node line := by
  rintro ⟨level, said, found, rfl⟩
  obtain rfl : text = said := Except.ok.inj (described.symm.trans found)
  have ending : (margin unit level ++ text ++ "\n").toList =
      (margin unit level).toList ++ (text ++ "\n").toList := by
    rw [String.append_assoc, String.toList_append]
  exact other (ending ▸ List.suffix_append _ _)

/-- A receiver, an `else` branch and a default have no line; and where a level does not fit into 64
bits, nothing has. -/
theorem printTree_omits_receiver_branch_default :
    ((∀ node ∈ walk partlyShown none,
        node.kind.isKnown = true ∧ ∃ text, node.description .endless = .ok text) ∧
      (printTree .endless .default partlyShown).failure = none ∧
      ∀ node ∈ [calledUser, .ofElse emptyElse, defaultNull], node ∈ walk partlyShown none ∧
        ∀ line ∈ (printTree .endless .default partlyShown).lines,
          ¬OwnLine .endless Layout.default.unit node line) ∧
    (walk [some defaultNull] none = [defaultNull] ∧
      printTree .endless ⟨9223372036854775808, ""⟩ [some defaultNull] =
        ⟨[], some (.indentation .levelRange)⟩) := by
  refine ⟨⟨described_partlyShown, by rw [printTree_partlyShown], ?_⟩, ?_, ?_⟩
  · rw [printTree_partlyShown, walk_partlyShown]
    intro node member
    simp only [List.mem_cons, List.not_mem_nil, or_false] at member
    rcases member with rfl | rfl | rfl
    · refine ⟨by simp, fun line listed => not_ownLine "Variable($user) @ 1:5" rfl ?_⟩
      revert line
      decide
    · refine ⟨by simp, fun line listed => not_ownLine "Else @ 2:1" rfl ?_⟩
      revert line
      decide
    · refine ⟨by simp, fun line listed => not_ownLine "Null @ 3:15" rfl ?_⟩
      revert line
      decide
  · simp [walk, defaultNull, Node.children]
  · have entries : treeEntries 9223372036854775808 [some defaultNull] =
        [⟨9223372036854775808, .node defaultNull⟩] := by
      rw [treeEntries_eq_outline, outline_single _ _ rfl]
      rfl
    rw [printTree, entries]
    decide

theorem printTree_lines_partlyShown :
    (∀ node ∈ walk partlyShown none, node.kind.isKnown = true) ∧
    (∀ path node, nodeAt partlyShown path = some node → ¬Hidden passesOver partlyShown path →
      ∃ text, node.description .endless = .ok text) ∧
    (∀ entry ∈ treeEntries 0 partlyShown, Indentable .endless "  " entry.level) ∧
    ∃ own, own.Sublist (printTree .endless .default partlyShown).lines ∧
      List.Forall₂ (fun place line => OwnLine .endless "  " place.2 line)
        ((occurrences (fun _ => true) partlyShown).filter fun (path, _) =>
          ¬Hidden passesOver partlyShown path) own := by
  have known : ∀ node ∈ walk partlyShown none, node.kind.isKnown = true :=
    fun node met => (described_partlyShown node met).1
  have described : ∀ path node, nodeAt partlyShown path = some node →
      ¬Hidden passesOver partlyShown path → ∃ text, node.description .endless = .ok text :=
    fun path node found _ =>
      (described_partlyShown node ((mem_walk partlyShown node).mpr ⟨path, found⟩)).2
  have indentable : ∀ entry ∈ treeEntries 0 partlyShown, Indentable .endless "  " entry.level := by
    rw [treeEntries_partlyShown]
    decide
  exact ⟨known, described, indentable,
    (printTree_lines_nodes_not_passed_over .endless .default partlyShown known described indentable).2⟩

end PhpLint.Outline
