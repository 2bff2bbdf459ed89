import PhpLint.Proofs.Elision

/-! Descriptions with the open levels counted. The count is a state that outlives a failure: a level is
opened around every entry that is embedded, and closed again however its text comes out. So a
description leaves the count as it was, and has no say in those that come after it. -/

namespace PhpLint

/-- Computations that keep a count of open levels, which a failure does not undo. -/
abbrev Counted := ExceptT TokenError (StateM Nat)

/-- Opens a level around a text, unless as many as there may be are open. It is closed again whether
the text is found or not. -/
def nest (text : Counted String) : Counted String := do
  let depth ← get
  if Node.descriptionDepth ≤ depth then return "..."
  set (depth + 1)
  try text finally set depth

theorem run_tryFinally_set (text : Counted String) (depth after : Nat) :
    (tryFinally text (set after) : Counted String).run.run depth =
      ((text.run.run depth).1, after) := by
  change (tryFinally (ExceptT.mk fun _ => text.run.run depth) (set after) : Counted String).run.run
    depth = _
  obtain ⟨error | found, inside⟩ := text.run.run depth <;> rfl

/-- Only what the text comes to is seen of it, and that it was one level further down. -/
theorem run_nest (text : Counted String) (depth : Nat) :
    (nest text).run.run depth =
      if Node.descriptionDepth ≤ depth then (.ok "...", depth)
      else ((text.run.run (depth + 1)).1, depth) := by
  have opened : (nest text).run.run depth =
      (if Node.descriptionDepth ≤ depth then pure "..."
        else do
          set (depth + 1)
          tryFinally text (set depth) : Counted String).run.run depth := rfl
  rw [opened]
  split
  · rfl
  · exact run_tryFinally_set text (depth + 1) depth

/-- Written numbers, and tokens, are found without a look at the count. -/
def uncounted (text : Except TokenError String) : Counted String := ofExcept text

/-- The text of something that is embedded below a node of some kind: the steps to it are taken before
its level is opened. -/
def nestBelow (limits : Limits) (parent : Kind) (text : Limits → Counted String) : Counted String :=
  limits.spend (limits.embeddingSteps parent) fun left => nest (text left)

/-- The description of a shape over the descriptions of what it embeds. -/
def nestEach (limits : Limits) (pos : Position) (shape : Shape (Limits → Counted String)) :
    Counted String :=
  shape.describeAt pos (fun value => uncounted (limits.decimal value))
    (fun entry => nestBelow limits shape.kind (entry.getD fun _ => return "None")) fun _ => return ""

mutual

/-- The description of a node, with a level open around everything it embeds. -/
def Node.counted : Node → Limits → Counted String
  | ⟨pos, .assignment left right⟩, limits =>
    nestEach limits pos (.assignment (countedSlot left) (countedSlot right))
  | ⟨pos, .binaryExpr left operator right⟩, limits =>
    nestEach limits pos (.binaryExpr (countedSlot left) operator (countedSlot right))
  | ⟨pos, .array elements long⟩, limits => nestEach limits pos (.array (countedSlots elements) long)
  | ⟨pos, .keyValue key value⟩, limits =>
    nestEach limits pos (.keyValue (countedSlot key) (countedSlot value))
  | ⟨pos, .arrayAccess base index⟩, limits =>
    nestEach limits pos (.arrayAccess (countedSlot base) (countedSlot index))
  | ⟨pos, .parameter name typeHint default⟩, limits =>
    nestEach limits pos (.parameter name typeHint (countedSlot default))
  | ⟨pos, .returnStmt expr⟩, limits => nestEach limits pos (.returnStmt (countedSlot expr))
  | ⟨pos, .expressionStmt expr⟩, limits => nestEach limits pos (.expressionStmt (countedSlot expr))
  | ⟨pos, .ifStmt condition _ _ _⟩, limits =>
    nestEach limits pos (.ifStmt (countedSlot condition) [] [] none)
  | ⟨pos, .elseIf condition _⟩, limits => nestEach limits pos (.elseIf (countedSlot condition) [])
  | ⟨pos, .whileStmt condition _⟩, limits =>
    nestEach limits pos (.whileStmt (countedSlot condition) [])
  -- the other kinds embed nothing
  | ⟨pos, shape⟩, limits =>
    shape.describeAt pos (fun value => uncounted (limits.decimal value)) (fun _ => return "")
      fun entry => uncounted (slotToken limits entry)

def countedSlot : Option Node → Option (Limits → Counted String)
  | none => none
  | some node => some node.counted

def countedSlots : List (Option Node) → List (Option (Limits → Counted String))
  | [] => []
  | entry :: rest => countedSlot entry :: countedSlots rest

end

/-- The text of an entry that stands by itself. -/
def countedEntry (limits : Limits) (entry : Option Node) : Counted String :=
  (countedSlot entry).getD (fun _ => return "None") limits

/-- The text of an entry that is embedded. -/
def nestedEntry (limits : Limits) (parent : Kind) (entry : Option Node) : Counted String :=
  nestBelow limits parent fun left => countedEntry left entry

theorem countedSlots_eq_map (entries : List (Option Node)) :
    countedSlots entries = entries.map countedSlot := by
  induction entries with
  | nil => rfl
  | cons entry rest ih => rw [countedSlots, ih, List.map_cons]

theorem Node.counted_eq_describeAt (limits : Limits) (node : Node) :
    node.counted limits =
      node.shape.describeAt node.pos (fun value => uncounted (limits.decimal value))
        (nestedEntry limits node.kind) fun entry => uncounted (slotToken limits entry) := by
  obtain ⟨pos, shape⟩ := node
  cases shape with
  | array elements long =>
      rw [counted, countedSlots_eq_map]
      simp only [nestEach, Shape.describeAt, Shape.describe, Shape.isLocated, List.mapM_map]
      rfl
  | keyValue key value => cases key <;> rfl
  | arrayAccess base index => cases index <;> rfl
  | parameter name typeHint default => cases default <;> rfl
  | returnStmt expr => cases expr <;> rfl
  | _ => rfl

/-- From this depth on, a computation comes to an outcome and leaves the depth as it was. -/
def Steady {α : Type} (depth : Nat) (x : Counted α) (outcome : Except TokenError α) : Prop :=
  x.run.run depth = (outcome, depth)

namespace Steady

variable {depth : Nat}

theorem pure {α : Type} (v : α) : Steady depth (Pure.pure v) (.ok v) := rfl

theorem uncounted (text : Except TokenError String) : Steady depth (PhpLint.uncounted text) text := by
  cases text <;> rfl

theorem bind {α β : Type} {x : Counted α} {y : Except TokenError α} {f : α → Counted β}
    {g : α → Except TokenError β} (first : Steady depth x y) (next : ∀ v, Steady depth (f v) (g v)) :
    Steady depth (x >>= f) (y >>= g) := by
  unfold Steady at first ⊢
  rw [ExceptT.run_bind, StateT.run_bind, first]
  cases y with
  | error error => rfl
  | ok v => exact next v

theorem mapM {α β : Type} {f : α → Counted β} {g : α → Except TokenError β}
    (each : ∀ x, Steady depth (f x) (g x)) (xs : List α) :
    Steady depth (xs.mapM f) (xs.mapM g) := by
  induction xs with
  | nil => exact pure []
  | cons x xs ih =>
      rw [List.mapM_cons, List.mapM_cons]
      exact (each x).bind fun _ => ih.bind fun _ => pure _

theorem ifPresent {α : Type} {f : Option α → Counted String}
    {g : Option α → Except TokenError String} (each : ∀ x, Steady depth (f x) (g x))
    (slot : Option α) : Steady depth (PhpLint.ifPresent f slot) (PhpLint.ifPresent g slot) := by
  cases slot with
  | none => exact pure ""
  | some child => exact each _

theorem describe {α : Type} {decimal : Int → Counted String} {embed token : Option α → Counted String}
    {decimal' : Int → Except TokenError String} {embed' token' : Option α → Except TokenError String}
    (writes : ∀ value, Steady depth (decimal value) (decimal' value))
    (embeds : ∀ entry, Steady depth (embed entry) (embed' entry))
    (reads : ∀ entry, Steady depth (token entry) (token' entry)) (shape : Shape α) :
    Steady depth (shape.describe decimal embed token) (shape.describe decimal' embed' token') := by
  cases shape <;> simp only [Shape.describe]
  all_goals repeat' first
    | exact pure _
    | exact writes _
    | exact embeds _
    | exact reads _
    | apply bind
    | apply mapM
    | apply ifPresent
    | intro _

theorem describeAt {α : Type} {decimal : Int → Counted String}
    {embed token : Option α → Counted String} {decimal' : Int → Except TokenError String}
    {embed' token' : Option α → Except TokenError String}
    (writes : ∀ value, Steady depth (decimal value) (decimal' value))
    (embeds : ∀ entry, Steady depth (embed entry) (embed' entry))
    (reads : ∀ entry, Steady depth (token entry) (token' entry)) (pos : Position) (shape : Shape α) :
    Steady depth (shape.describeAt pos decimal embed token)
      (shape.describeAt pos decimal' embed' token') := by
  refine (describe writes embeds reads shape).bind fun text => ?_
  split
  · exact ((writes pos.line).bind fun _ => (writes pos.column).bind fun _ => pure _).bind fun _ => pure _
  · exact pure _

theorem spend {limits : Limits} {steps : Nat} {text : Limits → Counted String}
    {outcome : Limits → Except TokenError String}
    (inside : Steady depth (text (limits.after steps)) (outcome (limits.after steps))) :
    Steady depth (limits.spend steps text) (limits.spend steps outcome) := by
  unfold Limits.spend
  split
  · exact inside
  · rfl

theorem nest_full (text : Counted String) (full : Node.descriptionDepth ≤ depth) :
    Steady depth (nest text) (.ok "...") := by
  rw [Steady, run_nest, if_pos full]

theorem nest {text : Counted String} {outcome : Except TokenError String}
    (free : depth < Node.descriptionDepth) (inside : Steady (depth + 1) text outcome) :
    Steady depth (nest text) outcome := by
  rw [Steady, run_nest, if_neg (Nat.not_le.mpr free), inside]

end Steady

theorem steady_countedEntry {depth levels : Nat} {limits : Limits}
    (embeds : ∀ parent entry,
      Steady depth (nestedEntry limits parent entry) (embedEntry limits parent levels entry))
    (entry : Option Node) :
    Steady depth (countedEntry limits entry) (describeEntry limits (levels + 1) entry) := by
  cases entry with
  | none => exact .pure "None"
  | some node =>
      change Steady depth (node.counted limits) (describeEntry limits (levels + 1) (some node))
      rw [node.counted_eq_describeAt, describeEntry_some]
      exact .describeAt (fun _ => .uncounted _) (embeds node.kind) (fun _ => .uncounted _) node.pos
        node.shape

/-- What is embedded at some depth is described with the levels that are left there. -/
theorem steady_nestedEntry (limits : Limits) (depth : Nat) (parent : Kind) (entry : Option Node) :
    Steady depth (nestedEntry limits parent entry)
      (embedEntry limits parent (Node.descriptionDepth - depth) entry) := by
  induction left : Node.descriptionDepth - depth generalizing limits depth parent entry with
  | zero =>
      rw [nestedEntry, nestBelow, embedEntry]
      apply Steady.spend
      exact .nest_full _ (Nat.sub_eq_zero_iff_le.mp left)
  | succ levels ih =>
      have free : depth < Node.descriptionDepth := by omega
      rw [nestedEntry, nestBelow, embedEntry]
      apply Steady.spend
      apply Steady.nest free
      apply steady_countedEntry
      intro parent child
      exact ih _ (depth + 1) parent child (by omega)

/-- Describes entries in turn, going on after one that fails. -/
def describeInTurn (limits : Limits) (entries : List (Option Node)) :
    StateM Nat (List (Except TokenError String)) :=
  entries.mapM fun entry => (countedEntry limits entry).run

theorem run_describeInTurn {limits : Limits} {depth : Nat}
    {outcome : Option Node → Except TokenError String}
    (steady : ∀ entry, Steady depth (countedEntry limits entry) (outcome entry))
    (entries : List (Option Node)) :
    (describeInTurn limits entries).run depth = (entries.map outcome, depth) := by
  induction entries with
  | nil => rfl
  | cons entry rest ih =>
      -- the rest starts at the depth that the entry left, which is the depth it found
      have after : (describeInTurn limits (entry :: rest)).run depth =
          Prod.map (outcome entry :: ·) id ((describeInTurn limits rest).run depth) := by
        rw [describeInTurn, List.mapM_cons, StateT.run_bind, steady entry]
        rfl
      rw [after, ih]
      rfl

/-- Embedded or by itself, an entry is described with the levels that are left at the depth it is met
at, and that depth is found again after it, as it is after any number of descriptions in turn. Each of
them comes out as it would alone: made at the top, as the node's description, or as its failure. -/
theorem descriptions_restore_depth (limits : Limits) (depth : Nat) :
    (∀ (parent : Kind) (entry : Option Node),
      (nestedEntry limits parent entry).run.run depth =
          (embedEntry limits parent (Node.descriptionDepth - depth) entry, depth) ∧
        (countedEntry limits entry).run.run depth =
          (describeEntry limits (Node.descriptionDepth - depth + 1) entry, depth)) ∧
    (∀ entries : List (Option Node),
      (describeInTurn limits entries).run depth =
        (entries.map fun entry => ((countedEntry limits entry).run.run depth).1, depth)) ∧
    ∀ nodes : List Node,
      (describeInTurn limits (nodes.map some)).run 0 = (nodes.map (Node.description limits), 0) := by
  have counted (depth : Nat) (entry : Option Node) :=
    steady_countedEntry (steady_nestedEntry limits depth) entry
  refine ⟨?embedded, ?alone, ?top⟩
  case embedded =>
    exact fun parent entry => ⟨steady_nestedEntry limits depth parent entry, counted depth entry⟩
  case alone =>
    intro entries
    apply run_describeInTurn
    intro entry
    rw [counted depth entry]
    exact counted depth entry
  case top =>
    intro nodes
    rw [run_describeInTurn (counted 0), List.map_map]
    rfl

-- an item without a value fails below its array, and what follows is described in full
example :
    (describeInTurn .endless
      [some ⟨.unknown, .array [some ⟨.unknown, .arrayItem none none false false⟩] false⟩, none,
        some ⟨⟨1, 0, 0⟩, .assignment (some ⟨⟨1, 0, 0⟩, .variableRef "x"⟩) none⟩]).run 0 =
      ([.error .emptySlot, .ok "None", .ok "Assignment(Variable($x) @ 1:0 = None) @ 1:0"], 0) := by
  rfl

end PhpLint
