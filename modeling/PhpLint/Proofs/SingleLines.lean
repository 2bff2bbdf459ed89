import PhpLint.Proofs.Interruptions
import PhpLint.Proofs.ShownTexts

/-! Lines of printed outlines. A line ends in a line break, and it has others exactly where the texts
that its node shows have some. -/

namespace PhpLint.Outline

/-- The texts that the lines of some entries show. -/
def textsOf (entries : List Entry) : List String :=
  (entries.filterMap Entry.node?).flatMap Node.shownTexts

/-- No label among the entries has a line break. -/
def LabelsUnbroken (entries : List Entry) : Prop :=
  ∀ entry ∈ entries, ∀ text, entry.item = .label text → breaks text = 0

theorem groups_label {node : Node} {group : Group} (member : group ∈ groups node) :
    breaks group.label = 0 := by
  rcases node with ⟨pos, shape⟩
  cases shape with
  | ifStmt condition body elseIfs otherwise =>
      have plain : breaks "Condition" = 0 ∧ breaks "Then" = 0 ∧ breaks "ElseIf" = 0 ∧
          breaks "Body" = 0 ∧ breaks "Else" = 0 := by decide
      simp only [groups, Group.plain, Group.elseIf, Group.otherwise, List.mem_append,
        List.mem_cons, List.not_mem_nil, or_false, List.mem_flatMap, List.mem_map] at member
      grind
  | _ =>
      revert group
      simp [groups, Group.plain, breaks]

theorem title_unbroken {node : Node} {group : Group} (member : group ∈ groups node) (level : Int) :
    LabelsUnbroken (group.title level) := by
  unfold Group.title
  split
  · intro entry listed text said
    obtain rfl := List.mem_singleton.mp listed
    rw [← Item.label.inj said, breaks_append, groups_label member]
    rfl
  · intro entry listed
    cases listed

theorem outline_unbroken (level : Int) (forest : Forest) : LabelsUnbroken (outline level forest) := by
  induction forest using group_induction generalizing level with
  | nil =>
      rw [outline_nil]
      intro entry member
      cases member
  | missing rest ih =>
      rw [outline_none]
      exact ih level
  | present node rest below after =>
      rw [outline_some]
      intro entry member
      rcases List.mem_append.mp member with first | later
      · split at first
        · rcases List.mem_cons.mp first with same | inside
          · intro text said
            rw [same] at said
            cases said
          · rcases List.mem_flatMap.mp inside with ⟨group, listed, inner⟩
            rcases List.mem_append.mp inner with label | nested
            · exact title_unbroken listed level entry label
            · exact below group listed _ entry nested
        · cases first
      · exact after level entry later

theorem breaks_margin {unit : String} (plain : breaks unit = 0) (level : Int) :
    breaks (margin unit level) = 0 := by
  rw [margin, breaks_join, breaksIn_eq_zero_iff]
  intro text member
  rw [List.eq_of_mem_replicate member, plain]

/-- A line has a break at its end, and those of the texts it shows. -/
theorem breaks_line {limits : Limits} {unit : String} (plain : breaks unit = 0) {entry : Entry}
    {line : String} (label : ∀ text, entry.item = .label text → breaks text = 0)
    (reads : Reads limits unit entry line) :
    breaks line = 1 + breaksIn (textsOf [entry]) := by
  obtain ⟨text, said, rfl⟩ := reads
  have shows : breaks text = breaksIn (textsOf [entry]) := by
    rcases entry with ⟨level, item⟩
    cases item with
    | label written =>
        rw [show text = written from said, label written rfl]
        rfl
    | node node =>
        rw [Node.breaks_description said]
        simp [textsOf, Entry.node?]
  rw [breaks_append, breaks_append, breaks_margin plain, shows, Nat.zero_add, Nat.add_comm]
  rfl

theorem textsOf_cons (entry : Entry) (rest : List Entry) :
    textsOf (entry :: rest) = textsOf [entry] ++ textsOf rest := by
  rw [← List.singleton_append, textsOf, List.filterMap_append, List.flatMap_append, textsOf, textsOf]

theorem breaks_lines {limits : Limits} {unit : String} (plain : breaks unit = 0) {entries : List Entry}
    {lines : List String} (labels : LabelsUnbroken entries)
    (reads : List.Forall₂ (Reads limits unit) entries lines) :
    breaks (String.join lines) = lines.length + breaksIn (textsOf entries) := by
  induction reads with
  | nil => rfl
  | @cons entry _ rest _ first _ ih =>
      have here := breaks_line plain (labels entry List.mem_cons_self) first
      have later := ih fun other member => labels other (List.mem_cons_of_mem entry member)
      rw [String.join_cons, breaks_append, here, later, textsOf_cons entry rest, breaksIn_append,
        List.length_cons]
      omega

/-- What is written has a line break for each line, and those of the texts that the lines show. -/
theorem breaks_write (limits : Limits) {unit : String} (plain : breaks unit = 0) {entries : List Entry}
    (labels : LabelsUnbroken entries) :
    breaks (write limits unit entries).text = (write limits unit entries).lines.length +
      breaksIn (textsOf (entries.take (write limits unit entries).lines.length)) := by
  refine breaks_lines plain ?_ (write_reads limits unit entries)
  intro entry member
  exact labels entry (List.mem_of_mem_take member)

/-- There is one line break for each entry exactly if no text that is shown has one. -/
theorem breaks_write_iff (limits : Limits) {unit : String} (plain : breaks unit = 0)
    {entries : List Entry} (labels : LabelsUnbroken entries)
    (finished : (write limits unit entries).failure = none) :
    breaks (write limits unit entries).text = entries.length ↔
      ∀ node ∈ entries.filterMap Entry.node?, ∀ text, node.Shows text → breaks text = 0 := by
  have whole := (write_whole_iff limits unit entries).mp finished
  rw [breaks_write limits plain labels, whole, List.take_length, Nat.add_eq_left, breaksIn_eq_zero_iff]
  simp only [textsOf, List.forall_mem_flatMap, Node.mem_shownTexts]

theorem nodesAt_unbroken (level : Int) (forest : Forest) : LabelsUnbroken (nodesAt level forest) := by
  intro entry member text said
  obtain ⟨node, listed, rfl⟩ := List.mem_map.mp member
  cases said

/-- The line breaks of a description are those of the texts it shows as they stand, in the nodes that it
embeds and in those that the tokens of array items are read from. So an outline has a line break for
each line and those of the texts; and it has one for each entry exactly if no text that the nodes with
a line show has a line break. -/
theorem outlines_break_where_texts_do (limits : Limits) (layout : Layout)
    (plain : breaks layout.unit = 0) (forest : Forest) :
    let entries := treeEntries layout.indent forest
    let tree := printTree limits layout forest
    let flat := printNodes limits layout forest
    (∀ (node : Node) (text : String),
      (node.description limits = .ok text → breaks text = breaksIn node.shownTexts) ∧
      (text ∈ node.shownTexts ↔ node.Shows text)) ∧
    (breaks tree.text = tree.lines.length + breaksIn (textsOf (entries.take tree.lines.length)) ∧
      (tree.failure = none → (breaks tree.text = entries.length ↔
        ∀ node ∈ lined forest, ∀ text, node.Shows text → breaks text = 0))) ∧
    breaks flat.text = flat.lines.length +
        breaksIn (textsOf ((nodesAt layout.indent forest).take flat.lines.length)) ∧
      (flat.failure = none → (breaks flat.text = (shown forest).length ↔
        ∀ node ∈ shown forest, ∀ text, node.Shows text → breaks text = 0)) := by
  intro entries tree flat
  have treeLabels : LabelsUnbroken entries := by
    rw [show entries = outline layout.indent forest from treeEntries_eq_outline _ _]
    exact outline_unbroken layout.indent forest
  have flatLabels := nodesAt_unbroken layout.indent forest
  refine ⟨?_, ⟨breaks_write limits plain treeLabels, ?_⟩, breaks_write limits plain flatLabels, ?_⟩
  · intro node text
    exact ⟨Node.breaks_description, node.mem_shownTexts text⟩
  · intro finished
    rw [← treeEntries_nodes layout.indent]
    exact breaks_write_iff limits plain treeLabels finished
  · intro finished
    have counted := breaks_write_iff limits plain flatLabels finished
    rw [nodesAt_nodes, nodesAt, List.length_map] at counted
    exact counted

/-- A string of two lines. -/
def twoLines : Node := ⟨⟨1, 1, 0⟩, .stringLiteral "a\nb"⟩

theorem twoLines_shows : twoLines.Shows "a\nb" :=
  ⟨twoLines, ⟨[], Nat.zero_le _, rfl⟩, .inl List.mem_cons_self⟩

/-- An array shows the two lines of its element, and the element shows them once more. -/
theorem outlines_break_inside_array :
    let forest : Forest := [some ⟨⟨1, 1, 0⟩, .array [some twoLines] false⟩]
    breaks Layout.default.unit = 0 ∧ (printTree .endless .default forest).failure = none ∧
    breaks (printTree .endless .default forest).text ≠ (treeEntries 0 forest).length := by
  intro forest
  have entries : treeEntries 0 forest =
      [⟨0, .node ⟨⟨1, 1, 0⟩, .array [some twoLines] false⟩⟩, ⟨1, .label "Elements:"⟩,
        ⟨2, .node twoLines⟩] := by
    rw [treeEntries_eq_outline]
    simp [forest, twoLines, outline_some, outline_nil, block, groups, Group.plain, Group.title,
      labelAt, shown, Node.kind, Shape.kind, Kind.isKnown]
  have finished : (printTree .endless .default forest).failure = none := by
    rw [printTree, show Layout.default.indent = 0 from rfl, entries]
    decide
  have listed : twoLines ∈ lined forest := by
    rw [← treeEntries_nodes 0, entries]
    simp [Entry.node?]
  have plain : breaks Layout.default.unit = 0 := rfl
  refine ⟨plain, finished, ?_⟩
  intro single
  obtain ⟨-, ⟨-, unbroken⟩, -⟩ := outlines_break_where_texts_do .endless .default plain forest
  exact absurd ((unbroken finished).mp single twoLines listed _ twoLines_shows) (by decide)

/-- A string literal is shown as it stands, so its line is two. -/
theorem outlines_break_string_literal :
    (∃ text, twoLines.description .endless = .ok text) ∧
    printNodes .endless .default [some twoLines] = ⟨["\"a\nb\" @ 1:1\n"], none⟩ ∧
    printTree .endless .default [some twoLines] = ⟨["\"a\nb\" @ 1:1\n"], none⟩ ∧
    breaks (printNodes .endless .default [some twoLines]).text ≠ (shown [some twoLines]).length ∧
    breaks (printTree .endless .default [some twoLines]).text ≠
      (treeEntries 0 [some twoLines]).length := by
  have entries : treeEntries 0 [some twoLines] = [⟨0, .node twoLines⟩] := by
    rw [treeEntries_eq_outline, outline_single 0 _ rfl]
    rfl
  have flat : printNodes .endless .default [some twoLines] = ⟨["\"a\nb\" @ 1:1\n"], none⟩ := by decide
  have tree : printTree .endless .default [some twoLines] = ⟨["\"a\nb\" @ 1:1\n"], none⟩ := by
    rw [printTree, show Layout.default.indent = 0 from rfl, entries]
    decide
  refine ⟨⟨_, rfl⟩, flat, tree, ?_, ?_⟩
  · rw [flat]
    decide
  · rw [tree, entries]
    decide

end PhpLint.Outline
