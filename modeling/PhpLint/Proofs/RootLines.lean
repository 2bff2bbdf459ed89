import PhpLint.Proofs.Labels
import PhpLint.Settings.Config

/-! Roots in printed outlines. Printing forests one after the other is printing them as one, and what
an expanded outline has at its base level is the flat outline. -/

namespace PhpLint.Outline

/-- Goes on with a second outline, unless the first one stopped early. -/
def Printed.andThen (first second : Printed) : Printed :=
  match first.failure with
  | none => ⟨first.lines ++ second.lines, second.failure⟩
  | some _ => first

theorem Printed.after_andThen (line : String) (first second : Printed) :
    (first.after line).andThen second = (first.andThen second).after line := by
  rcases first with ⟨lines, failure⟩
  cases failure <;> rfl

theorem Printed.text_andThen {first : Printed} (second : Printed) (finished : first.failure = none) :
    (first.andThen second).text = first.text ++ second.text := by
  rw [andThen, finished, text, text, text, String.join_append]

section Outlines

variable (limits : Limits)

/-- Entries are written from left to right, and none after one that has no line. -/
theorem write_append (unit : String) (left right : List Entry) :
    write limits unit (left ++ right) = (write limits unit left).andThen (write limits unit right) := by
  induction left with
  | nil => rfl
  | cons entry rest ih =>
      rw [List.cons_append, write, write]
      cases entry.line limits unit with
      | error error => rfl
      | ok line => rw [ih, Printed.after_andThen]

theorem shown_append (left right : Forest) : shown (left ++ right) = shown left ++ shown right := by
  rw [shown, List.filterMap_append, List.filter_append, shown, shown]

theorem printNodes_append (layout : Layout) (left right : Forest) :
    printNodes limits layout (left ++ right) =
      (printNodes limits layout left).andThen (printNodes limits layout right) := by
  rw [printNodes, nodesAt, shown_append, List.map_append, write_append]
  rfl

theorem treeEntries_append (indent : Int) (left right : Forest) :
    treeEntries indent (left ++ right) = treeEntries indent left ++ treeEntries indent right := by
  simp only [treeEntries_eq_outline, outline_append]

theorem printTree_append (layout : Layout) (left right : Forest) :
    printTree limits layout (left ++ right) =
      (printTree limits layout left).andThen (printTree limits layout right) := by
  rw [printTree, treeEntries_append, write_append, printTree, printTree]

/-- The entries at a level. -/
def atLevel (level : Int) (entries : List Entry) : List Entry :=
  entries.filter fun entry => entry.level = level

theorem atLevel_cons (level : Int) (entry : Entry) (rest : List Entry) :
    atLevel level (entry :: rest) =
      (if entry.level = level then [entry] else []) ++ atLevel level rest := by
  by_cases same : entry.level = level <;> simp [atLevel, same]

theorem atLevel_append (level : Int) (left right : List Entry) :
    atLevel level (left ++ right) = atLevel level left ++ atLevel level right :=
  List.filter_append left right

theorem atLevel_deeper {level : Int} {entries : List Entry}
    (deeper : ∀ entry ∈ entries, level < entry.level) : atLevel level entries = [] := by
  apply List.filter_eq_nil_iff.mpr
  intro entry member
  have below := deeper entry member
  simp only [decide_eq_true_eq]
  omega

/-- All that stands in the groups of a node is deeper than the node. -/
theorem outlined_deeper {node : Node} {group : Group} (listed : group ∈ groups node) (level : Int)
    {entry : Entry} (member : entry ∈ group.outlined level) : level < entry.level := by
  have within := (group.outlined_rooted level).within entry member
  have depth := depth_pos listed
  omega

theorem atLevel_block (level : Int) (node : Node) :
    atLevel level (block level node) = [⟨level, .node node⟩] := by
  have below : atLevel level ((groups node).flatMap (Group.outlined level)) = [] := by
    apply atLevel_deeper
    intro entry member
    rcases List.mem_flatMap.mp member with ⟨group, listed, inside⟩
    exact outlined_deeper listed level inside
  rw [block, atLevel_cons, if_pos rfl]
  exact congrArg ([⟨level, .node node⟩] ++ ·) below

/-- Only roots stand at the level of an outline. -/
theorem atLevel_outline (level : Int) (forest : Forest) :
    atLevel level (outline level forest) = nodesAt level forest := by
  induction forest with
  | nil => simp [outline_nil, atLevel, nodesAt, shown]
  | cons slot rest ih =>
      cases slot with
      | none => rw [outline_none, ih]; rfl
      | some node =>
          rw [outline_some, atLevel_append, ih, nodesAt_some]
          congr 1
          split
          · exact atLevel_block level node
          · rfl

/-- The lines written for the entries at a level. -/
def linesAt (level : Int) (entries : List Entry) (printed : Printed) : List String :=
  ((entries.zip printed.lines).filter fun (entry, _) => entry.level = level).map Prod.snd

theorem linesAt_cons (level : Int) (entry : Entry) (rest : List Entry) (line : String)
    (printed : Printed) :
    linesAt level (entry :: rest) (printed.after line) =
      (if entry.level = level then [line] else []) ++ linesAt level rest printed := by
  by_cases same : entry.level = level <;> simp [linesAt, Printed.after, same]

/-- Among others the entries at a level are written as they are on their own, or not as far if one of
the others has no line. -/
theorem linesAt_write (unit : String) (level : Int) (entries : List Entry) :
    linesAt level entries (write limits unit entries) <+:
        (write limits unit (atLevel level entries)).lines ∧
      ((write limits unit entries).failure = none →
        linesAt level entries (write limits unit entries) =
          (write limits unit (atLevel level entries)).lines) := by
  induction entries with
  | nil => exact ⟨List.prefix_refl _, fun _ => rfl⟩
  | cons entry rest ih =>
      rw [write, atLevel_cons]
      cases found : entry.line limits unit with
      | error error => simp [linesAt]
      | ok line =>
          simp only [linesAt_cons]
          split
          · rw [List.singleton_append, List.singleton_append, write, found]
            refine ⟨List.cons_prefix_cons.mpr ⟨rfl, ih.1⟩, ?_⟩
            intro finished
            exact congrArg (line :: ·) (ih.2 finished)
          · exact ih

theorem write_atLevel_finishes {limits : Limits} {unit : String} {entries : List Entry} (level : Int)
    (finished : (write limits unit entries).failure = none) :
    (write limits unit (atLevel level entries)).failure = none := by
  rw [write_failure_eq_none_iff] at finished ⊢
  intro entry member
  exact finished entry (List.mem_of_mem_filter member)

theorem Printed.finished_of_andThen {first second : Printed}
    (finished : (first.andThen second).failure = none) : first.failure = none := by
  cases ended : first.failure with
  | none => rfl
  | some error =>
      rw [andThen, ended] at finished
      exact ended.symm.trans finished

/-- An expanded and a flat outline that both come to the end and show the same roots. -/
structure SameRoots (layout : Layout) (forest : Forest) (tree flat : Printed) : Prop where
  finished : tree.failure = none ∧ flat.failure = none
  lines : linesAt layout.indent (treeEntries layout.indent forest) tree = flat.lines

theorem atLevel_treeEntries (indent : Int) (forest : Forest) :
    atLevel indent (treeEntries indent forest) = nodesAt indent forest := by
  rw [treeEntries_eq_outline, atLevel_outline]

theorem sameRoots_of_finished {limits : Limits} {layout : Layout} {forest : Forest}
    (finished : (printTree limits layout forest).failure = none) :
    SameRoots layout forest (printTree limits layout forest) (printNodes limits layout forest) := by
  have roots := atLevel_treeEntries layout.indent forest
  refine ⟨⟨finished, ?_⟩, ?_⟩
  · rw [printNodes, ← roots]
    exact write_atLevel_finishes layout.indent finished
  · rw [printNodes, ← roots]
    exact (linesAt_write limits layout.unit layout.indent _).2 finished

/-- An outline of two forests is that of the first, continued by that of the second unless it stopped.
Just the roots stand at the base level of an expanded outline, and as far as it is written they have
the lines of the flat one. Both outlines come to the end and show the same roots if every node with a
line has a description and every level can be indented, whichever way a configuration chooses. -/
theorem outlines_join_and_share_roots (layout : Layout) (left right : Forest) :
    let forest := left ++ right
    let entries := treeEntries layout.indent forest
    (printTree limits layout forest =
        (printTree limits layout left).andThen (printTree limits layout right) ∧
      printNodes limits layout forest =
        (printNodes limits layout left).andThen (printNodes limits layout right)) ∧
    (atLevel layout.indent entries = nodesAt layout.indent forest ∧
      ∀ entry ∈ entries, entry.level = layout.indent ∨ layout.indent < entry.level) ∧
    linesAt layout.indent entries (printTree limits layout forest) <+:
      (printNodes limits layout forest).lines ∧
    ((∀ node ∈ lined forest, ∃ text, node.description limits = .ok text) →
      (∀ entry ∈ entries, Indentable limits layout.unit entry.level) →
      ((printTree limits layout forest).text =
          (printTree limits layout left).text ++ (printTree limits layout right).text ∧
        (printNodes limits layout forest).text =
          (printNodes limits layout left).text ++ (printNodes limits layout right).text) ∧
      SameRoots layout forest (printTree limits layout forest) (printNodes limits layout forest) ∧
      ∀ config : Config, config.indentUnit = layout.unit →
        SameRoots layout forest (Config.outline limits config layout.indent (some true) forest)
          (Config.outline limits config layout.indent (some false) forest)) := by
  intro forest entries
  have tree := printTree_append limits layout left right
  have flat := printNodes_append limits layout left right
  have roots := atLevel_treeEntries layout.indent forest
  refine ⟨⟨tree, flat⟩, ⟨roots, ?_⟩, ?_, ?_⟩
  · intro entry member
    rw [show entries = outline layout.indent forest from treeEntries_eq_outline _ _] at member
    have within := (outline_rooted layout.indent forest).within entry member
    omega
  · rw [printNodes, ← roots]
    exact (linesAt_write limits layout.unit layout.indent entries).1
  · intro described indentable
    have finished : (printTree limits layout forest).failure = none :=
      (printTree_finishes_iff limits layout forest).mpr ⟨described, indentable⟩
    have same := sameRoots_of_finished finished
    refine ⟨⟨?_, ?_⟩, same, ?_⟩
    · rw [tree] at finished ⊢
      exact Printed.text_andThen _ (Printed.finished_of_andThen finished)
    · have ended := same.finished.2
      rw [flat] at ended ⊢
      exact Printed.text_andThen _ (Printed.finished_of_andThen ended)
    · intro config unit
      have chosen : config.layout layout.indent = layout := by rw [Config.layout, unit]
      simp only [Config.outline, chosen]
      exact same

end Outlines

/-- An array with one element. -/
def arrayOfNull : Node := ⟨.unknown, .array [some ⟨.unknown, .nullLiteral⟩] false⟩

/-- An empty slot and a leaf. -/
def laterNull : Forest := [none, some ⟨.unknown, .nullLiteral⟩]

theorem treeEntries_arrayOfNull (indent : Int) :
    treeEntries indent [some arrayOfNull] =
      [⟨indent, .node arrayOfNull⟩, ⟨indent + 1, .label "Elements:"⟩,
        ⟨indent + 1 + 1, .node ⟨.unknown, .nullLiteral⟩⟩] := by
  rw [treeEntries_eq_outline]
  simp [arrayOfNull, outline_some, outline_nil, block, groups, Group.plain, Group.title, labelAt,
    shown, Node.kind, Shape.kind, Kind.isKnown]

theorem treeEntries_laterNull (indent : Int) :
    treeEntries indent laterNull = [⟨indent, .node ⟨.unknown, .nullLiteral⟩⟩] := by
  rw [treeEntries_eq_outline, laterNull, outline_none, outline_single indent _ rfl]
  rfl

theorem described_array_and_null :
    ∀ node ∈ lined ([some arrayOfNull] ++ laterNull),
      ∃ text, node.description .endless = .ok text := by
  rw [← treeEntries_nodes 0, treeEntries_append, treeEntries_arrayOfNull, treeEntries_laterNull]
  intro node member
  simp only [List.cons_append, List.nil_append, Entry.node?, List.filterMap_cons,
    List.filterMap_nil, List.mem_cons, List.not_mem_nil, or_false] at member
  rcases member with same | same | same <;> rw [same] <;> exact ⟨_, rfl⟩

/-- The roots are the lines without indentation here, in both outlines. -/
theorem outlines_share_array_and_null :
    let forest : Forest := [some arrayOfNull] ++ laterNull
    (printTree .endless .default forest).text =
      (printTree .endless .default [some arrayOfNull]).text ++
        (printTree .endless .default laterNull).text ∧
    linesAt 0 (treeEntries 0 forest) (printTree .endless .default forest) =
      ["Array(Null @ 0:0) @ 0:0\n", "Null @ 0:0\n"] := by
  intro forest
  have indentable : ∀ entry ∈ treeEntries 0 forest, Indentable .endless "  " entry.level := by
    rw [treeEntries_append, treeEntries_arrayOfNull, treeEntries_laterNull]
    decide
  obtain ⟨-, -, -, agree⟩ :=
    outlines_join_and_share_roots .endless .default [some arrayOfNull] laterNull
  obtain ⟨⟨joined, -⟩, same, -⟩ := agree described_array_and_null indentable
  exact ⟨joined, same.lines.trans (by decide)⟩

/-- With no room for a level below the base, the expanded outline stops inside its first root: it lacks
the line of the second, and so it is not that of both roots in a row. -/
theorem outlines_differ_beyond_word :
    let layout : Layout := ⟨9223372036854775807, ""⟩
    let forest : Forest := [some arrayOfNull] ++ laterNull
    (∀ node ∈ lined forest, ∃ text, node.description .endless = .ok text) ∧
    (printTree .endless layout forest).text ≠
      (printTree .endless layout [some arrayOfNull]).text ++
        (printTree .endless layout laterNull).text ∧
    linesAt layout.indent (treeEntries layout.indent forest) (printTree .endless layout forest) ≠
      (printNodes .endless layout forest).lines := by
  intro layout forest
  refine ⟨described_array_and_null, ?_, ?_⟩
  · rw [printTree, printTree, printTree, treeEntries_append, treeEntries_arrayOfNull,
      treeEntries_laterNull]
    decide
  · rw [printTree, treeEntries_append, treeEntries_arrayOfNull, treeEntries_laterNull]
    decide

end PhpLint.Outline
