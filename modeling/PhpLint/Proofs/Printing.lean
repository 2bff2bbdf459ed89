import Mathlib.Data.List.Forall2
import PhpLint.Outline.Printer
import PhpLint.Proofs.Outlines

/-! Printed outlines: which entries have a line, and that all lines of the recursive outline are
written when all entries have one. -/

namespace PhpLint.Outline

/-- The unit, once for each level above zero. -/
def margin (unit : String) (level : Int) : String :=
  String.join (List.replicate level.toNat unit)

/-- The levels that can be indented: those that fit into 64 bits, as the length of their indentation
does, for which memory is found. -/
structure Indentable (limits : Limits) (unit : String) (level : Int) : Prop where
  level_word : -9223372036854775808 ≤ level ∧ level < 9223372036854775808
  length_word : unit.length * level.toNat < 9223372036854775808
  memory : ∀ most ∈ limits.memory, unit.length * level.toNat ≤ most

instance (limits : Limits) (unit : String) (level : Int) : Decidable (Indentable limits unit level) :=
  decidable_of_iff
    (isWord level = true ∧ unit.length * level.toNat < 9223372036854775808 ∧
      Limits.within limits.memory (unit.length * level.toNat) = true)
    ⟨fun ⟨level_word, length, memory⟩ =>
        ⟨(isWord_iff level).mp level_word, length, (Limits.within_iff _ _).mp memory⟩,
      fun fits =>
        ⟨(isWord_iff level).mpr fits.level_word, fits.length_word,
          (Limits.within_iff _ _).mpr fits.memory⟩⟩

theorem margin_eq_empty (unit : String) (level : Int) (short : unit.length * level.toNat = 0) :
    margin unit level = "" := by
  rcases Nat.mul_eq_zero.mp short with noUnit | noLevel
  · have empty : unit = "" := String.length_eq_zero_iff.mp noUnit
    rw [margin, empty]
    induction level.toNat with
    | zero => rfl
    | succ count ih => simpa [List.replicate_succ, String.join_cons] using ih
  · rw [margin, noLevel]
    rfl

theorem indentable_of_indentation {limits : Limits} {unit : String} {level : Int} {text : String}
    (found : indentation limits unit level = .ok text) : Indentable limits unit level := by
  simp only [indentation] at found
  split at found
  next => cases found
  next narrow =>
    have word := (isWord_iff level).mp (by simpa using narrow)
    split at found
    next nothing => exact ⟨word, by omega, fun most _ => by omega⟩
    next =>
      split at found
      next => cases found
      next short =>
        split at found
        next => cases found
        next free =>
          have length := Int.ofNat_lt.mp (Int.not_le.mp short)
          exact ⟨word, length, (Limits.within_iff _ _).mp (by simpa using free)⟩

theorem Indentable.indentation_eq {limits : Limits} {unit : String} {level : Int}
    (fits : Indentable limits unit level) :
    indentation limits unit level = .ok (margin unit level) := by
  have word := (isWord_iff level).mpr fits.level_word
  have short : ¬wordBound ≤ Int.ofNat (unit.length * level.toNat) :=
    Int.not_le.mpr (Int.ofNat_lt.mpr fits.length_word)
  have free := (Limits.within_iff _ _).mpr fits.memory
  by_cases nothing : unit.length * level.toNat = 0
  · simp [indentation, word, nothing, margin_eq_empty unit level nothing]
  · simp only [indentation, word, free, short, nothing]
    rfl

theorem indentation_eq_ok_iff (limits : Limits) (unit : String) (level : Int) (text : String) :
    indentation limits unit level = .ok text ↔
      Indentable limits unit level ∧ margin unit level = text := by
  constructor
  · intro found
    have fits := indentable_of_indentation found
    rw [fits.indentation_eq] at found
    exact ⟨fits, Except.ok.inj found⟩
  · intro given
    rw [given.1.indentation_eq, given.2]

section Lines

variable (limits : Limits)

/-- What an item says: a label itself, a node its description. -/
def Item.Says : Item → String → Prop
  | .label written, text => text = written
  | .node shown, text => shown.description limits = .ok text

/-- The line of an entry. -/
def Reads (unit : String) (entry : Entry) (line : String) : Prop :=
  ∃ text, entry.item.Says limits text ∧ line = margin unit entry.level ++ text ++ "\n"

theorem says_of_text (item : Item) (text : String) (found : item.text limits = .ok text) :
    item.Says limits text := by
  cases item with
  | label label => exact (Except.ok.inj found).symm
  | node node => exact found

theorem line_eq_ok_iff (unit : String) (entry : Entry) (line : String) :
    entry.line limits unit = .ok line ↔
      ∃ text, entry.item.text limits = .ok text ∧ Indentable limits unit entry.level ∧
        margin unit entry.level ++ text ++ "\n" = line := by
  unfold Entry.line
  cases said : entry.item.text limits with
  | error error => simp
  | ok text =>
      cases indented : indentation limits unit entry.level with
      | error error =>
          have refused : ¬Indentable limits unit entry.level := by
            intro fits
            have given := (indentation_eq_ok_iff limits unit entry.level _).mpr ⟨fits, rfl⟩
            rw [indented] at given
            cases given
          simp [refused]
      | ok indent =>
          obtain ⟨fits, rfl⟩ := (indentation_eq_ok_iff limits unit entry.level indent).mp indented
          simp [fits]

/-- Writing goes to the end exactly if every entry has a line. -/
theorem write_failure_eq_none_iff (unit : String) (entries : List Entry) :
    (write limits unit entries).failure = none ↔
      ∀ entry ∈ entries, ∃ line, entry.line limits unit = .ok line := by
  induction entries with
  | nil => simp [write]
  | cons entry rest ih =>
      rw [write]
      cases found : entry.line limits unit with
      | error error => simp [found]
      | ok line => simpa [found, Printed.after] using ih

theorem write_lines (unit : String) (entries : List Entry)
    (finished : (write limits unit entries).failure = none) :
    List.Forall₂ (fun entry line => entry.line limits unit = .ok line) entries
      (write limits unit entries).lines := by
  induction entries with
  | nil => exact .nil
  | cons entry rest ih =>
      rw [write] at finished ⊢
      cases found : entry.line limits unit with
      | error error => simp [found] at finished
      | ok line =>
          rw [found] at finished
          exact .cons found (ih finished)

/-- The entries of a node inside an outline are those of the node on its own, shifted. -/
theorem treeEntries_block (indent other level : Int) (forest : Forest) (node : Node)
    (before after : List Entry)
    (place : treeEntries indent forest = before ++ ⟨level, .node node⟩ :: after) :
    (treeEntries other [some node]).map (Entry.shift (level - other)) <+:
      ⟨level, .node node⟩ :: after := by
  rw [treeEntries_eq_outline] at place
  have moved : other + (level - other) = level := by omega
  rw [treeEntries_eq_outline, ← outline_shift, moved]
  exact outline_blocks indent forest level node after ⟨before, place.symm⟩

/-- Where every node of the outline has a description, the expanded outline is written to the end
exactly if every level can be indented, and then it has a line for each entry of the recursive
outline. The entries of a node inside are those of its own outline, all shifted alike. -/
theorem printTree_writes_outline (layout : Layout) (forest : Forest)
    (described : ∀ level node, ⟨level, .node node⟩ ∈ outline layout.indent forest →
      ∃ text, node.description limits = .ok text) :
    ((printTree limits layout forest).failure = none ↔
      ∀ entry ∈ outline layout.indent forest, Indentable limits layout.unit entry.level) ∧
    ((printTree limits layout forest).failure = none →
      List.Forall₂ (Reads limits layout.unit) (outline layout.indent forest)
        (printTree limits layout forest).lines) ∧
    ∀ before level node after other,
      treeEntries layout.indent forest = before ++ ⟨level, .node node⟩ :: after →
      (treeEntries other [some node]).map (Entry.shift (level - other)) <+:
        ⟨level, .node node⟩ :: after := by
  have texts : ∀ entry ∈ outline layout.indent forest, ∃ text, entry.item.text limits = .ok text := by
    rintro ⟨level, item⟩ member
    cases item with
    | label text => exact ⟨text, rfl⟩
    | node node => exact described level node member
  refine ⟨?_, ?_, ?_⟩
  · rw [printTree, treeEntries_eq_outline, write_failure_eq_none_iff]
    constructor
    · intro lines entry member
      obtain ⟨line, found⟩ := lines entry member
      obtain ⟨text, said, fits, same⟩ := (line_eq_ok_iff limits layout.unit entry line).mp found
      exact fits
    · intro fits entry member
      obtain ⟨text, said⟩ := texts entry member
      exact ⟨_, (line_eq_ok_iff limits layout.unit entry _).mpr ⟨text, said, fits entry member, rfl⟩⟩
  · intro finished
    rw [printTree, treeEntries_eq_outline] at finished ⊢
    refine (write_lines limits layout.unit _ finished).imp ?_
    intro entry line found
    obtain ⟨text, said, fits, same⟩ := (line_eq_ok_iff limits layout.unit entry line).mp found
    exact ⟨text, says_of_text limits entry.item text said, same.symm⟩
  · intro before level node after other place
    exact treeEntries_block layout.indent other level forest node before after place

end Lines

/-- A conditional with both kinds of branches, an empty slot and a foreign node. -/
def branching : Node :=
  ⟨⟨3, 1, 0⟩, .ifStmt (some ⟨⟨3, 5, 0⟩, .variableRef "x"⟩)
    [some ⟨.unknown, .foreign "Odd" "Odd" []⟩]
    [⟨⟨4, 1, 0⟩, none, [some ⟨⟨4, 9, 0⟩, .nullLiteral⟩]⟩] (some ⟨⟨5, 1, 0⟩, []⟩)⟩

theorem outline_branching :
    outline 0 [none, some branching] =
      [⟨0, .node branching⟩, labelAt 1 "Condition",
        ⟨2, .node ⟨⟨3, 5, 0⟩, .variableRef "x"⟩⟩, labelAt 1 "ElseIf", labelAt 2 "Body",
        ⟨3, .node ⟨⟨4, 9, 0⟩, .nullLiteral⟩⟩, labelAt 1 "Else"] := by
  simp [branching, outline_none, outline_some, outline_nil, block, groups, Group.plain,
    Group.elseIf, Group.otherwise, Group.title, shown, Node.kind, Shape.kind, Kind.isKnown]

theorem printTree_writes_branching :
    let limits : Limits := ⟨some 3, some 1, some 6, fun _ => 1, fun _ => 3⟩
    (∀ level node, ⟨level, .node node⟩ ∈ outline 0 [none, some branching] →
      ∃ text, node.description limits = .ok text) ∧
    (printTree limits .default [none, some branching]).failure = none ∧
    List.Forall₂ (Reads limits "  ") (outline 0 [none, some branching])
      (printTree limits .default [none, some branching]).lines := by
  intro limits
  have described : ∀ level node, ⟨level, .node node⟩ ∈ outline 0 [none, some branching] →
      ∃ text, node.description limits = .ok text := by
    intro level node member
    simp only [outline_branching, labelAt, List.mem_cons, Entry.mk.injEq, Item.node.injEq,
      reduceCtorEq, and_false, false_or, or_false, List.not_mem_nil] at member
    rcases member with ⟨-, rfl⟩ | ⟨-, rfl⟩ | ⟨-, rfl⟩ <;> exact ⟨_, rfl⟩
  have indentable : ∀ entry ∈ outline 0 [none, some branching], Indentable limits "  " entry.level := by
    rw [outline_branching]
    decide
  have written := printTree_writes_outline limits .default [none, some branching] described
  have finished := written.1.mpr indentable
  exact ⟨described, finished, written.2.1 finished⟩

/-- A level that does not fit into 64 bits cannot be indented, even with nothing and without limits. -/
theorem printTree_stops_beyond_word :
    let layout : Layout := ⟨9223372036854775808, ""⟩
    let forest : Forest := [some ⟨.unknown, .nullLiteral⟩]
    (∀ level node, ⟨level, .node node⟩ ∈ outline layout.indent forest →
      ∃ text, node.description .endless = .ok text) ∧
    (printTree .endless layout forest).failure = some (.indentation .levelRange) ∧
    ¬List.Forall₂ (Reads .endless layout.unit) (outline layout.indent forest)
      (printTree .endless layout forest).lines := by
  intro layout forest
  have entries : outline layout.indent forest =
      [⟨9223372036854775808, .node ⟨.unknown, .nullLiteral⟩⟩] := by
    rw [outline_single layout.indent _ rfl]
    rfl
  have printed : printTree .endless layout forest = ⟨[], some (.indentation .levelRange)⟩ := by
    rw [printTree, treeEntries_eq_outline, entries]
    decide
  rw [entries, printed]
  refine ⟨?_, rfl, ?_⟩
  · intro level node member
    obtain ⟨rfl, rfl⟩ : level = 9223372036854775808 ∧ node = ⟨.unknown, .nullLiteral⟩ := by
      simpa using member
    exact ⟨_, rfl⟩
  · intro reads
    cases reads

end PhpLint.Outline
