import PhpLint.Proofs.OwnLines
import PhpLint.Proofs.TokenSources

/-! Interrupted outlines. An outline is written up to the first entry that has no line, and that is a
node whose description fails or an entry at a level that cannot be indented. -/

namespace PhpLint.Outline

section Writing

variable (limits : Limits)

/-- The entries that have no line. -/
def Entry.Interrupts (unit : String) (entry : Entry) : Prop :=
  (∃ node error, entry.item = .node node ∧ node.description limits = .error error) ∨
    ¬Indentable limits unit entry.level

theorem text_eq_error_iff (item : Item) :
    (∃ error, item.text limits = .error error) ↔
      ∃ node error, item = .node node ∧ node.description limits = .error error := by
  cases item with
  | label text => simp [Item.text]
  | node node => simp [Item.text]

theorem not_exists_ok_iff {ε α : Type} (x : Except ε α) :
    (¬∃ result, x = .ok result) ↔ ∃ error, x = .error error := by
  cases x <;> simp

theorem line_eq_error_iff (unit : String) (entry : Entry) :
    (∃ error, entry.line limits unit = .error error) ↔ entry.Interrupts limits unit := by
  rw [← not_exists_ok_iff, exists_line_iff, Entry.Interrupts, ← text_eq_error_iff, ← not_exists_ok_iff]
  exact Classical.not_and_iff_not_or_not

theorem reads_of_line {limits : Limits} {unit : String} {entry : Entry} {line : String}
    (found : entry.line limits unit = .ok line) : Reads limits unit entry line := by
  obtain ⟨text, said, -, same⟩ := (line_eq_ok_iff limits unit entry line).mp found
  exact ⟨text, says_of_text limits entry.item text said, same.symm⟩

/-- Entries are written up to the first that has no line, and what keeps it from having one is why
writing fails. -/
structure StopsAtFirst (unit : String) (entries : List Entry) (printed : Printed) : Prop where
  fails : printed.failure ≠ none ↔ ∃ entry ∈ entries, entry.Interrupts limits unit
  whole : printed.failure = none → List.Forall₂ (Reads limits unit) entries printed.lines
  upTo : ∀ before entry after, entries = before ++ entry :: after →
    (∀ earlier ∈ before, ¬earlier.Interrupts limits unit) → entry.Interrupts limits unit →
    List.Forall₂ (Reads limits unit) before printed.lines ∧
      ∃ error, entry.line limits unit = .error error ∧ printed.failure = some error

theorem write_fails_iff (unit : String) (entries : List Entry) :
    (write limits unit entries).failure ≠ none ↔ ∃ entry ∈ entries, entry.Interrupts limits unit := by
  rw [Ne, write_failure_eq_none_iff]
  simp only [← line_eq_error_iff, ← not_exists_ok_iff]
  grind

theorem write_upTo {limits : Limits} {unit : String} {entry : Entry} {error : PrintError}
    (failed : entry.line limits unit = .error error) (after before : List Entry)
    (lines : ∀ earlier ∈ before, ¬earlier.Interrupts limits unit) :
    List.Forall₂ (Reads limits unit) before (write limits unit (before ++ entry :: after)).lines ∧
      (write limits unit (before ++ entry :: after)).failure = some error := by
  induction before with
  | nil =>
      rw [List.nil_append, write, failed]
      exact ⟨.nil, rfl⟩
  | cons first before ih =>
      obtain ⟨reads, stopped⟩ := ih fun earlier member => lines earlier (List.mem_cons_of_mem _ member)
      rw [List.cons_append, write]
      cases found : first.line limits unit with
      | error other =>
          have interrupts := (line_eq_error_iff limits unit first).mp ⟨other, found⟩
          exact absurd interrupts (lines first List.mem_cons_self)
      | ok line => exact ⟨.cons (reads_of_line found) reads, stopped⟩

theorem write_stopsAtFirst (unit : String) (entries : List Entry) :
    StopsAtFirst limits unit entries (write limits unit entries) := by
  refine ⟨write_fails_iff limits unit entries, ?_, ?_⟩
  · intro finished
    exact (write_lines limits unit entries finished).imp fun _ _ found => reads_of_line found
  · rintro before entry after rfl lines interrupts
    obtain ⟨error, failed⟩ := (line_eq_error_iff limits unit entry).mpr interrupts
    obtain ⟨reads, stopped⟩ := write_upTo failed after before lines
    exact ⟨reads, error, failed, stopped⟩

/-- Some entry has no line exactly if the description of some node among them fails or some level
cannot be indented. -/
theorem exists_interrupts_iff (unit : String) (entries : List Entry) :
    (∃ entry ∈ entries, entry.Interrupts limits unit) ↔
      (∃ node ∈ entries.filterMap Entry.node?, ∃ error,
        node.description limits = .error error) ∨
      ∃ entry ∈ entries, ¬Indentable limits unit entry.level := by
  have nodes : (∃ node ∈ entries.filterMap Entry.node?, ∃ error,
      node.description limits = .error error) ↔
      ∃ entry ∈ entries, ∃ error, entry.item.text limits = .error error := by
    simp only [← not_exists_ok_iff]
    have texts := texts_iff limits entries
    grind
  simp only [Entry.Interrupts, ← text_eq_error_iff, nodes]
  grind

theorem nodesAt_nodes (level : Int) (forest : Forest) :
    (nodesAt level forest).filterMap Entry.node? = shown forest := by
  rw [nodesAt, List.filterMap_map]
  exact List.filterMap_some

theorem nodesAt_indentable (unit : String) (level : Int) (forest : Forest) :
    (∃ entry ∈ nodesAt level forest, ¬Indentable limits unit entry.level) ↔
      shown forest ≠ [] ∧ ¬Indentable limits unit level := by
  constructor
  · rintro ⟨entry, member, refused⟩
    obtain ⟨node, listed, rfl⟩ := List.mem_map.mp member
    exact ⟨List.ne_nil_of_mem listed, refused⟩
  · rintro ⟨some, refused⟩
    obtain ⟨node, listed⟩ := List.exists_mem_of_ne_nil _ some
    exact ⟨_, List.mem_map_of_mem listed, refused⟩

/-- Whatever the limits, a node with a description shows no token that an empty slot is met in, and a
description fails over an empty slot only where it shows such a token. Where the limits allow for it, it
fails just there. An outline fails exactly if a node with a line has no description or a level cannot be
indented; and it is written up to the first entry of which that is so. -/
theorem printing_stops_at_first_failing_description :
    (∀ node : Node,
      ((∃ text, node.description limits = .ok text) → ¬node.ShowsEmpty) ∧
      (node.description limits = .error .emptySlot → node.ShowsEmpty) ∧
      (node.Fits limits →
        (node.description limits = .error .emptySlot ↔ node.ShowsEmpty) ∧
        ((∃ text, node.description limits = .ok text) ↔ ¬node.ShowsEmpty))) ∧
    ∀ (layout : Layout) (forest : Forest),
      (((printTree limits layout forest).failure ≠ none ↔
          (∃ node ∈ lined forest, ∃ error, node.description limits = .error error) ∨
            ∃ entry ∈ outline layout.indent forest, ¬Indentable limits layout.unit entry.level) ∧
        StopsAtFirst limits layout.unit (outline layout.indent forest)
          (printTree limits layout forest)) ∧
      ((printNodes limits layout forest).failure ≠ none ↔
          (∃ node ∈ shown forest, ∃ error, node.description limits = .error error) ∨
            shown forest ≠ [] ∧ ¬Indentable limits layout.unit layout.indent) ∧
        StopsAtFirst limits layout.unit (nodesAt layout.indent forest)
          (printNodes limits layout forest) := by
  refine ⟨?_, ?_⟩
  · intro node
    refine ⟨?_, Node.showsEmpty_of_failed, ?_⟩
    · intro described
      obtain ⟨text, found⟩ := described
      exact Node.not_showsEmpty_of_described found
    · intro fits
      exact ⟨fits.description_eq_error_iff, fits.exists_description_iff⟩
  · intro layout forest
    have tree : StopsAtFirst limits layout.unit (outline layout.indent forest)
        (printTree limits layout forest) := by
      rw [printTree, treeEntries_eq_outline]
      exact write_stopsAtFirst limits layout.unit (outline layout.indent forest)
    have flat := write_stopsAtFirst limits layout.unit (nodesAt layout.indent forest)
    refine ⟨⟨?_, tree⟩, ?_, flat⟩
    · rw [tree.fails, exists_interrupts_iff, lined_eq]
    · rw [printNodes, flat.fails, exists_interrupts_iff, nodesAt_nodes, nodesAt_indentable]

end Writing

/-- An array whose only item has no value. -/
def valueless : Node := ⟨.unknown, .array [some (.item none)] false⟩

theorem slotEntry_valueless {slot : Slot} {entry : Option Node}
    (held : valueless.shape.slotEntry slot = some entry) :
    slot = .element 0 ∧ entry = some (.item none) := by
  cases slot <;> simp [valueless, Shape.slotEntry, List.getElem?_singleton] at held
  obtain ⟨rfl, rfl⟩ := held
  exact ⟨rfl, rfl⟩

theorem slotEntry_item (value : Option Node) (slot : Slot) :
    (Node.item value).shape.slotEntry slot = none := by
  cases slot <;> rfl

theorem tokenEntry_item {index : Nat} {value entry : Option Node}
    (held : (Node.item value).shape.tokenEntry index = some entry) : entry = value := by
  rcases index with - | - | index
  · cases held
  · exact (Option.some.inj held).symm
  · cases held

theorem entryAt_valueless {route : List Slot} {node : Node}
    (reached : entryAt route (some valueless) = some (some node)) :
    route = [] ∧ node = valueless ∨ route = [.element 0] ∧ node = .item none := by
  cases route with
  | nil =>
      cases reached
      exact .inl ⟨rfl, rfl⟩
  | cons slot rest =>
      obtain ⟨entry, held, below⟩ := Option.bind_eq_some_iff.mp reached
      obtain ⟨rfl, rfl⟩ := slotEntry_valueless held
      cases rest with
      | nil =>
          cases below
          exact .inr ⟨rfl, rfl⟩
      | cons next rest =>
          obtain ⟨entry, held, -⟩ := Option.bind_eq_some_iff.mp below
          rw [slotEntry_item] at held
          cases held

/-- Just the room to embed the item, one digit for the positions, and nothing to indent with. -/
def scant : Limits := ⟨some 5, some 1, some 0, fun _ => 1, fun _ => 5⟩

theorem valueless_fits : valueless.Fits scant := by
  intro route node _ reached
  rcases entryAt_valueless reached with ⟨rfl, rfl⟩ | ⟨rfl, rfl⟩
  · exact {
      embeds := fun _ _ _ => by decide
      tokens := fun index entry held => by simp [valueless, Shape.tokenEntry] at held
      integer := fun value literal => by cases literal
      line := by decide
      column := by decide }
  · exact {
      embeds := fun slot entry held => by rw [slotEntry_item] at held; cases held
      tokens := fun index entry held => by
        rw [tokenEntry_item held]
        constructor
        · intro path source reached
          cases path <;> cases reached
        · intro path source value reached
          cases path <;> cases reached
      integer := fun value literal => by cases literal
      line := by decide
      column := by decide }

theorem printing_stops_before_valueless_item :
    let null : Node := ⟨.unknown, .nullLiteral⟩
    let printed := printTree scant .default [some null, some valueless]
    (valueless.Fits scant ∧ valueless.ShowsEmpty) ∧
    List.Forall₂ (Reads scant "  ") [⟨0, .node null⟩] printed.lines ∧
    printed.failure = some (.description .emptySlot) := by
  intro null printed
  obtain ⟨described, written⟩ := printing_stops_at_first_failing_description scant
  have shows : valueless.ShowsEmpty :=
    ⟨none, ⟨[.element 0], .item none, 1, by decide, rfl, rfl⟩, meetsEmpty_none⟩
  have failed : valueless.description scant = .error .emptySlot :=
    ((described valueless).2.2 valueless_fits).1.mpr shows
  have entries : outline 0 [some null, some valueless] = [⟨0, .node null⟩] ++ ⟨0, .node valueless⟩ ::
      [labelAt 1 "Elements", ⟨2, .node (.item none)⟩] := by
    simp [null, valueless, Node.item, outline_none, outline_some, outline_nil, block, groups,
      Group.plain, Group.title, shown, Node.kind, Shape.kind, Kind.isKnown]
  have lined : ∀ earlier ∈ [(⟨0, .node null⟩ : Entry)], ¬earlier.Interrupts scant "  " := by
    intro earlier member
    obtain rfl := List.mem_singleton.mp member
    have written : null.description scant = .ok "Null @ 0:0" := by decide
    rintro (⟨node, error, ⟨⟩, failed⟩ | refused)
    · rw [written] at failed
      cases failed
    · exact refused (by decide)
  obtain ⟨reads, error, line, stopped⟩ := (written .default [some null, some valueless]).1.2.upTo
    _ _ _ entries lined (.inl ⟨valueless, _, rfl, failed⟩)
  refine ⟨⟨valueless_fits, shows⟩, reads, ?_⟩
  have said : Entry.line scant "  " ⟨0, .node valueless⟩ = .error (.description .emptySlot) := by
    rw [Entry.line, Item.text, failed]
  have same : error = .description .emptySlot := Except.error.inj (line.symm.trans said)
  exact stopped.trans (congrArg some same)

/-- A description fails without an empty slot in what it shows where there is no room to read a token,
and an outline of nodes that all have descriptions where a level cannot be indented. -/
theorem printing_stops_without_empty_slot :
    let deep : Node := .item (some (Node.wrapped ⟨.unknown, .identifier "a"⟩ 997))
    let null : Node := ⟨.unknown, .nullLiteral⟩
    let layout : Layout := ⟨9223372036854775808, ""⟩
    (deep.description .endless = .ok "ArrayItem(a) @ 0:0" ∧ ¬deep.ShowsEmpty ∧
      deep.description (.stepwise 997) = .error .tooDeep) ∧
    null.description .endless = .ok "Null @ 0:0" ∧ lined [some null] = [null] ∧
      (printTree .endless layout [some null]).failure = some (.indentation .levelRange) := by
  intro deep null layout
  have whole : deep.description .endless = .ok "ArrayItem(a) @ 0:0" :=
    Node.description_item_wrapped "a" 997
  have stopped : deep.description (.stepwise 997) = .error .tooDeep :=
    Node.description_item_of_error (Node.token_wrapped_stepwise _ 997)
  have entries (level : Int) : outline level [some null] = [⟨level, .node null⟩] := by
    rw [outline_single level _ rfl]
    rfl
  refine ⟨⟨whole, Node.not_showsEmpty_of_described whole, stopped⟩, rfl, ?_, ?_⟩
  · rw [lined, entries]
    rfl
  · rw [printTree, treeEntries_eq_outline, entries]
    decide

end PhpLint.Outline
