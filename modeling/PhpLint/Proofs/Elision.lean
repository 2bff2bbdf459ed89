import PhpLint.Tree.Description

/-! Where descriptions end. A description embeds the entries of some slots of a node; it goes on
along such edges until their number exceeds the limit, and nothing below that has a say in it. -/

namespace PhpLint

/-- The slots whose entries a description embeds. -/
inductive Slot where
  | left
  | right
  | element (index : Nat)
  | key
  | value
  | base
  | index
  | default
  | expr
  | condition
  deriving DecidableEq, Repr

namespace Shape

variable {α : Type}

/-- The entry that is embedded from a slot, which may be an empty one. An optional slot that stands
empty has none. -/
def slotEntry : Slot → Shape α → Option (Option α)
  | .left, .assignment left _ | .left, .binaryExpr left _ _ => some left
  | .right, .assignment _ right | .right, .binaryExpr _ _ right => some right
  | .element index, .array elements _ => elements[index]?
  | .key, .keyValue key _ => key.map some
  | .value, .keyValue _ value => some value
  | .base, .arrayAccess base _ => some base
  | .index, .arrayAccess _ index => index.map some
  | .default, .parameter _ _ default => default.map some
  | .expr, .returnStmt expr => expr.map some
  | .expr, .expressionStmt expr => some expr
  | .condition, .ifStmt condition _ _ _ | .condition, .elseIf condition _
  | .condition, .whileStmt condition _ => some condition
  | _, _ => none

/-- The shape with another entry in a slot. -/
def setEntry (entry : Option α) : Slot → Shape α → Shape α
  | .left, .assignment _ right => .assignment entry right
  | .left, .binaryExpr _ operator right => .binaryExpr entry operator right
  | .right, .assignment left _ => .assignment left entry
  | .right, .binaryExpr left operator _ => .binaryExpr left operator entry
  | .element index, .array elements long => .array (elements.set index entry) long
  | .key, .keyValue _ value => .keyValue entry value
  | .value, .keyValue key _ => .keyValue key entry
  | .base, .arrayAccess _ index => .arrayAccess entry index
  | .index, .arrayAccess base _ => .arrayAccess base entry
  | .default, .parameter name typeHint _ => .parameter name typeHint entry
  | .expr, .returnStmt _ => .returnStmt entry
  | .expr, .expressionStmt _ => .expressionStmt entry
  | .condition, .ifStmt _ body elseIfs otherwise => .ifStmt entry body elseIfs otherwise
  | .condition, .elseIf _ body => .elseIf entry body
  | .condition, .whileStmt _ body => .whileStmt entry body
  | _, shape => shape

theorem mapM_eq_of_map_eq {m : Type → Type} [Monad m] [LawfulMonad m] {f g : Option α → m String}
    {entries others : List (Option α)} (same : entries.map f = others.map g) :
    entries.mapM f = others.mapM g := by
  have mapped : ∀ (h : Option α → m String) (items : List (Option α)),
      items.mapM h = (items.map h).mapM id := by
    intro h items
    rw [List.mapM_map]
    rfl
  rw [mapped, mapped, same]

variable {m : Type → Type} [Monad m] [LawfulMonad m] {decimal : Int → m String}
  {embed other token : Option α → m String}

theorem describe_congr {shape : Shape α}
    (agree : ∀ slot entry, shape.slotEntry slot = some entry → embed entry = other entry) :
    shape.describe decimal embed token = shape.describe decimal other token := by
  cases shape with
  | assignment left right =>
      simp only [describe, agree .left left rfl, agree .right right rfl]
  | binaryExpr left operator right =>
      simp only [describe, agree .left left rfl, agree .right right rfl]
  | array elements long =>
      have same : elements.map embed = elements.map other := by
        apply List.map_congr_left
        intro entry member
        obtain ⟨index, found⟩ := List.mem_iff_getElem?.mp member
        exact agree (.element index) entry found
      simp only [describe, mapM_eq_of_map_eq same]
  | keyValue key value =>
      cases key with
      | none => simp only [describe, ifPresent, agree .value value rfl]
      | some key =>
          simp only [describe, ifPresent, agree .key (some key) rfl, agree .value value rfl]
  | arrayAccess base index =>
      cases index with
      | none => simp only [describe, ifPresent, agree .base base rfl]
      | some index =>
          simp only [describe, ifPresent, agree .base base rfl, agree .index (some index) rfl]
  | parameter name typeHint default =>
      cases default with
      | none => rfl
      | some default => simp only [describe, ifPresent, agree .default (some default) rfl]
  | returnStmt expr =>
      cases expr with
      | none => rfl
      | some expr => simp only [describe, ifPresent, agree .expr (some expr) rfl]
  | expressionStmt expr => simp only [describe, agree .expr expr rfl]
  | ifStmt condition body elseIfs otherwise =>
      simp only [describe, agree .condition condition rfl]
  | elseIf condition body => simp only [describe, agree .condition condition rfl]
  | whileStmt condition body => simp only [describe, agree .condition condition rfl]
  | _ => rfl

theorem slotEntry_setEntry_some {shape : Shape α} {slot : Slot} {old : Option α}
    (held : shape.slotEntry slot = some old) (child : α) :
    (shape.setEntry (some child) slot).slotEntry slot = some (some child) := by
  revert held
  fun_cases slotEntry slot shape <;>
    simp +contextual [setEntry, slotEntry, List.getElem?_eq_some_iff]

omit [LawfulMonad m] in
theorem ifPresent_of_map_some {slot entry : Option α} (text : Option α → m String)
    (held : slot.map some = some entry) : ifPresent text slot = text entry := by
  obtain ⟨child, rfl, rfl⟩ := Option.map_eq_some_iff.mp held
  rfl

theorem describe_setEntry {shape : Shape α} {slot : Slot} {old new : Option α}
    (held : shape.slotEntry slot = some old)
    (holds : (shape.setEntry new slot).slotEntry slot = some new)
    (same : embed new = embed old) :
    (shape.setEntry new slot).describe decimal embed token = shape.describe decimal embed token := by
  revert held holds
  fun_cases slotEntry slot shape
  case case5 index elements long =>
    intro held _
    have unchanged : (elements.set index new).map embed = elements.map embed := by
      obtain ⟨inside, rfl⟩ := List.getElem?_eq_some_iff.mp held
      rw [List.map_set, same, ← List.getElem_map embed, List.set_getElem_self]
      simpa using inside
    simp only [setEntry, describe, mapM_eq_of_map_eq unchanged]
  -- an optional slot is filled before and after
  case case6 | case9 | case10 | case11 =>
    intro held holds
    simp only [setEntry, describe, ifPresent_of_map_some _ held, ifPresent_of_map_some _ holds,
      same]
  case case16 =>
    rintro ⟨⟩
  all_goals
    rintro ⟨⟩ _
    simp only [setEntry, describe, same]

end Shape

/-- The entry at the end of a path of embedding edges. -/
def entryAt : List Slot → Option Node → Option (Option Node)
  | [], entry => some entry
  | _ :: _, none => none
  | slot :: path, some node => (node.shape.slotEntry slot).bind (entryAt path)

/-- The tree with another entry at the end of a path. -/
def replaceAt (new : Option Node) : List Slot → Option Node → Option Node
  | [], _ => new
  | _ :: _, none => none
  | slot :: path, some node =>
    match node.shape.slotEntry slot with
    | none => some node
    | some entry =>
      some { node with shape := node.shape.setEntry (replaceAt new path entry) slot }

def located (limits : Limits) (pos : Position) (text : String) : Except TokenError String := do
  return text ++ " @ " ++ (← pos.text limits.decimal)

section Spelling

variable (elided : Nat → Bool)

mutual

/-- The description of a node that stands `depth` edges below the one that is described: without a
limit to the levels, but for the slots at the depths that are left out. -/
def Node.spell (limits : Limits) (depth : Nat) : Node → Except TokenError String
  | ⟨pos, .assignment left right⟩ => do
    let left ← spellEntry limits .assignment (depth + 1) left
    let right ← spellEntry limits .assignment (depth + 1) right
    located limits pos ("Assignment(" ++ left ++ " = " ++ right ++ ")")
  | ⟨pos, .binaryExpr left operator right⟩ => do
    let left ← spellEntry limits .binaryExpr (depth + 1) left
    let right ← spellEntry limits .binaryExpr (depth + 1) right
    located limits pos ("BinaryExpr(" ++ left ++ " " ++ operator ++ " " ++ right ++ ")")
  | ⟨pos, .array elements _⟩ => do
    let elements ← spellEntries limits .array (depth + 1) elements
    located limits pos ("Array(" ++ ", ".intercalate elements ++ ")")
  | ⟨_, .keyValue key value⟩ => do
    let keyText ←
      if key.isSome then (· ++ " => ") <$> spellEntry limits .keyValue (depth + 1) key else pure ""
    let valueText ← spellEntry limits .keyValue (depth + 1) value
    return keyText ++ valueText
  | ⟨pos, .arrayAccess base index⟩ => do
    let indexText ← if index.isSome then spellEntry limits .arrayAccess (depth + 1) index else pure ""
    let baseText ← spellEntry limits .arrayAccess (depth + 1) base
    located limits pos ("ArrayAccess(" ++ baseText ++ "[" ++ indexText ++ "])")
  | ⟨pos, .parameter name typeHint default⟩ => do
    let defaultText ←
      if default.isSome then (" = " ++ ·) <$> spellEntry limits .parameter (depth + 1) default
      else pure ""
    located limits pos (" ".intercalate (unlessEmpty typeHint ++ ["$" ++ name]) ++ defaultText)
  | ⟨pos, .returnStmt expr⟩ => do
    let exprText ← if expr.isSome then spellEntry limits .returnStmt (depth + 1) expr else pure ""
    located limits pos ("Return(" ++ exprText ++ ")")
  | ⟨pos, .expressionStmt expr⟩ => do
    let exprText ← spellEntry limits .expressionStmt (depth + 1) expr
    located limits pos ("ExpressionStmt(" ++ exprText ++ ")")
  | ⟨pos, .ifStmt condition _ _ _⟩ => do
    let conditionText ← spellEntry limits .ifStmt (depth + 1) condition
    located limits pos ("If(Cond: " ++ conditionText ++ ")")
  | ⟨pos, .elseIf condition _⟩ => do
    let conditionText ← spellEntry limits .elseIf (depth + 1) condition
    located limits pos ("ElseIf(Cond: " ++ conditionText ++ ")")
  | ⟨pos, .whileStmt condition _⟩ => do
    let conditionText ← spellEntry limits .whileStmt (depth + 1) condition
    located limits pos ("While(Cond: " ++ conditionText ++ ")")
  -- the other kinds embed nothing
  | ⟨pos, shape⟩ => shape.describeAt pos limits.decimal (fun _ => .ok "") (slotToken limits)

/-- The text of an entry below a node of some kind. -/
def spellEntry (limits : Limits) (parent : Kind) (depth : Nat) :
    Option Node → Except TokenError String
  | none => limits.spend (limits.embeddingSteps parent) fun _ =>
    .ok (if elided depth then "..." else "None")
  | some node => limits.spend (limits.embeddingSteps parent) fun left =>
    if elided depth then .ok "..." else node.spell left depth

def spellEntries (limits : Limits) (parent : Kind) (depth : Nat) :
    List (Option Node) → Except TokenError (List String)
  | [] => .ok []
  | entry :: rest => do
    let text ← spellEntry limits parent depth entry
    let others ← spellEntries limits parent depth rest
    return text :: others

end

theorem spellEntries_eq_mapM (limits : Limits) (parent : Kind) (depth : Nat)
    (entries : List (Option Node)) :
    spellEntries elided limits parent depth entries =
      entries.mapM (spellEntry elided limits parent depth) := by
  induction entries with
  | nil => rfl
  | cons entry rest ih => rw [spellEntries, ih, List.mapM_cons]

theorem Node.spell_eq_describeAt (limits : Limits) (depth : Nat) (node : Node) :
    node.spell elided limits depth =
      node.shape.describeAt node.pos limits.decimal (spellEntry elided limits node.kind (depth + 1))
        (slotToken limits) := by
  obtain ⟨pos, shape⟩ := node
  cases shape with
  | array elements long =>
      rw [spell, spellEntries_eq_mapM]
      simp [Shape.describeAt, Shape.describe, Shape.isLocated, located, kind, Shape.kind]
  | keyValue key value =>
      cases key <;>
        simp [spell, Shape.describeAt, Shape.describe, Shape.isLocated, ifPresent, kind, Shape.kind]
  | arrayAccess base index =>
      cases index <;>
        simp [spell, Shape.describeAt, Shape.describe, Shape.isLocated, ifPresent, located, kind,
          Shape.kind]
  | parameter name typeHint default =>
      cases default <;>
        simp [spell, Shape.describeAt, Shape.describe, Shape.isLocated, ifPresent, located, kind,
          Shape.kind]
  | returnStmt expr =>
      cases expr <;>
        simp [spell, Shape.describeAt, Shape.describe, Shape.isLocated, ifPresent, located, kind,
          Shape.kind]
  | _ => simp [spell, Shape.describeAt, Shape.describe, Shape.isLocated, located, kind, Shape.kind]

end Spelling

/-- The text of an entry that is embedded below a node of some kind, with so many levels left. -/
def embedEntry (limits : Limits) (parent : Kind) (levels : Nat) (entry : Option Node) :
    Except TokenError String :=
  limits.spend (limits.embeddingSteps parent) fun left => describeEntry left levels entry

theorem describeEntry_some (limits : Limits) (levels : Nat) (node : Node) :
    describeEntry limits (levels + 1) (some node) =
      node.shape.describeAt node.pos limits.decimal (embedEntry limits node.kind levels)
        (slotToken limits) := rfl

theorem Limits.spend_congr {α : Type} {limits : Limits} {steps : Nat}
    {go other : Limits → Except TokenError α}
    (same : go (limits.after steps) = other (limits.after steps)) :
    limits.spend steps go = limits.spend steps other := by
  rw [spend, spend, same]

theorem Shape.describeAt_congr {shape : Shape Node} {pos : Position}
    {decimal : Int → Except TokenError String}
    {embed other token : Option Node → Except TokenError String}
    (agree : ∀ slot entry, shape.slotEntry slot = some entry → embed entry = other entry) :
    shape.describeAt pos decimal embed token = shape.describeAt pos decimal other token := by
  rw [describeAt, describeAt, describe_congr agree]

theorem Shape.isLocated_setEntry (shape : Shape Node) (slot : Slot) (new : Option Node) :
    (shape.setEntry new slot).isLocated = shape.isLocated := by
  fun_cases Shape.setEntry new slot shape <;> rfl

theorem Shape.kind_setEntry (shape : Shape Node) (slot : Slot) (new : Option Node) :
    (shape.setEntry new slot).kind = shape.kind := by
  fun_cases Shape.setEntry new slot shape <;> rfl

theorem Shape.describeAt_setEntry {shape : Shape Node} {pos : Position}
    {decimal : Int → Except TokenError String} {embed token : Option Node → Except TokenError String}
    {slot : Slot} {old new : Option Node} (held : shape.slotEntry slot = some old)
    (holds : (shape.setEntry new slot).slotEntry slot = some new) (same : embed new = embed old) :
    (shape.setEntry new slot).describeAt pos decimal embed token =
      shape.describeAt pos decimal embed token := by
  rw [describeAt, describeAt, isLocated_setEntry, describe_setEntry held holds same]

/-- With the levels counted from above or from below, the same entries are left out. -/
theorem embedEntry_eq_spellEntry {limits : Limits} {parent : Kind} {levels depth most : Nat}
    (level : depth + levels = most + 1) (entry : Option Node) :
    embedEntry limits parent levels entry = spellEntry (· == most + 1) limits parent depth entry := by
  induction levels generalizing limits parent depth entry with
  | zero =>
      obtain rfl : depth = most + 1 := level
      cases entry <;> simp [embedEntry, spellEntry, describeEntry]
  | succ levels ih =>
      have above : ¬ depth = most + 1 := by omega
      cases entry with
      | none => simp [embedEntry, spellEntry, describeEntry, above]
      | some child =>
          have deeper (left : Limits) (kind : Kind) :
              embedEntry left kind levels = spellEntry (· == most + 1) left kind (depth + 1) :=
            funext (ih (by omega))
          rw [embedEntry, spellEntry]
          apply Limits.spend_congr
          simp [above, describeEntry_some, deeper, Node.spell_eq_describeAt]

theorem embedEntry_eq_spellEntry_whole {limits : Limits} {parent : Kind} {levels depth : Nat}
    {root : Option Node}
    (shallow : ∀ path entry, entryAt path root = some entry → path.length < levels) :
    embedEntry limits parent levels root = spellEntry (fun _ => false) limits parent depth root := by
  induction levels generalizing limits parent depth root with
  | zero => exact absurd (shallow [] root rfl) (Nat.not_lt_zero _)
  | succ levels ih =>
      cases root with
      | none => rfl
      | some node =>
          rw [embedEntry, spellEntry]
          apply Limits.spend_congr
          rw [describeEntry_some, if_neg Bool.false_ne_true, Node.spell_eq_describeAt]
          apply Shape.describeAt_congr
          intro slot entry held
          apply ih
          intro path last reached
          have extended : entryAt (slot :: path) (some node) = some last := by
            simp [entryAt, held, reached]
          exact Nat.lt_of_succ_lt_succ (shallow _ _ extended)

theorem replaceAt_cons (new : Option Node) {slot : Slot} {node : Node} {entry : Option Node}
    (held : node.shape.slotEntry slot = some entry) (path : List Slot) :
    replaceAt new (slot :: path) (some node) =
      some { node with shape := node.shape.setEntry (replaceAt new path entry) slot } := by
  simp [replaceAt, held]

theorem entryAt_cons {slot : Slot} {path : List Slot} {root old : Option Node}
    (reached : entryAt (slot :: path) root = some old) :
    ∃ node entry, root = some node ∧ node.shape.slotEntry slot = some entry ∧
      entryAt path entry = some old := by
  cases root with
  | none => simp [entryAt] at reached
  | some node =>
      obtain ⟨entry, held, below⟩ := Option.bind_eq_some_iff.mp reached
      exact ⟨node, entry, rfl, held, below⟩

/-- The nodes that a description with so many levels embeds, the described one among them. -/
def Node.Embeds (limit : Nat) (node item : Node) : Prop :=
  ∃ route : List Slot, route.length ≤ limit ∧ entryAt route (some node) = some (some item)

theorem Node.embeds_zero (node item : Node) : node.Embeds 0 item ↔ item = node := by
  constructor
  · rintro ⟨route, short, reached⟩
    obtain rfl : route = [] := List.length_eq_zero_iff.mp (Nat.le_zero.mp short)
    cases reached
    rfl
  · rintro rfl
    exact ⟨[], Nat.le_refl 0, rfl⟩

theorem Node.embeds_succ (limit : Nat) (node item : Node) :
    node.Embeds (limit + 1) item ↔
      item = node ∨
      ∃ slot child, node.shape.slotEntry slot = some (some child) ∧ child.Embeds limit item := by
  constructor
  · rintro ⟨route, short, reached⟩
    cases route with
    | nil =>
        cases reached
        exact .inl rfl
    | cons slot route =>
        obtain ⟨_, below, ⟨⟩, holds, further⟩ := entryAt_cons reached
        cases below with
        | none => cases route <;> cases further
        | some child => exact .inr ⟨slot, child, holds, route, Nat.le_of_succ_le_succ short, further⟩
  · rintro (rfl | ⟨slot, child, holds, route, short, further⟩)
    · exact ⟨[], Nat.zero_le _, rfl⟩
    · refine ⟨slot :: route, Nat.succ_le_succ short, ?_⟩
      rw [entryAt, holds]
      exact further

/-- A slot holds what a replacement below it makes of its entry, unless the entry itself is
replaced and the new one does not stand there. -/
theorem slotEntry_replaced {node : Node} {slot : Slot} {path : List Slot}
    {entry old new : Option Node}
    (held : node.shape.slotEntry slot = some entry) (below : entryAt path entry = some old)
    (stands : path = [] → (node.shape.setEntry new slot).slotEntry slot = some new) :
    (node.shape.setEntry (replaceAt new path entry) slot).slotEntry slot =
      some (replaceAt new path entry) := by
  cases path with
  | nil => exact stands rfl
  | cons next path =>
      obtain ⟨child, inner, rfl, heldBelow, -⟩ := entryAt_cons below
      rw [replaceAt_cons new heldBelow]
      exact Shape.slotEntry_setEntry_some held _

theorem entryAt_replaceAt_some (child : Node) {path : List Slot} {root old : Option Node}
    (reached : entryAt path root = some old) :
    entryAt path (replaceAt (some child) path root) = some (some child) := by
  induction path generalizing root with
  | nil => rfl
  | cons slot path ih =>
      obtain ⟨node, entry, rfl, held, below⟩ := entryAt_cons reached
      have kept := slotEntry_replaced held below fun _ => Shape.slotEntry_setEntry_some held child
      rw [replaceAt_cons _ held, entryAt, kept]
      exact ih below

/-- With the levels used up before the path ends, a replacement at its end is not seen. -/
theorem describeEntry_replaceAt {limits : Limits} {levels : Nat} {path : List Slot}
    {root old new : Option Node} (reached : entryAt path root = some old)
    (deep : levels ≤ path.length)
    (stands : path.length = levels → entryAt path (replaceAt new path root) = some new) :
    describeEntry limits levels (replaceAt new path root) = describeEntry limits levels root := by
  induction levels generalizing limits path root with
  | zero => rfl
  | succ levels ih =>
      cases path with
      | nil => simp at deep
      | cons slot path =>
          obtain ⟨node, entry, rfl, held, below⟩ := entryAt_cons reached
          simp only [List.length_cons, Nat.succ_le_succ_iff, Nat.succ.injEq] at deep stands
          have kept : (node.shape.setEntry (replaceAt new path entry) slot).slotEntry slot =
              some (replaceAt new path entry) := by
            -- only the last edge can be one that the new entry makes vanish
            apply slotEntry_replaced held below
            rintro rfl
            have last := stands (Nat.le_antisymm (Nat.zero_le _) deep)
            rw [replaceAt_cons new held] at last
            simpa [entryAt, replaceAt] using last
          have same (left : Limits) : describeEntry left levels (replaceAt new path entry) =
              describeEntry left levels entry := by
            apply ih below deep
            intro last
            simpa [replaceAt_cons new held, entryAt, kept] using stands last
          have embeds : embedEntry limits node.kind levels (replaceAt new path entry) =
              embedEntry limits node.kind levels entry := Limits.spend_congr (same _)
          rw [replaceAt_cons new held, describeEntry_some, describeEntry_some, Node.kind,
            Shape.kind_setEntry]
          exact Shape.describeAt_setEntry held kept embeds

/-- All that a description embeds, were there no limit, is at most so many edges below. -/
def Node.EmbedsWithin (levels : Nat) (node : Node) : Prop :=
  ∀ path entry, entryAt path (some node) = some entry → path.length ≤ levels

structure EmbedsLevels (levels : Nat) (limits : Limits) (describe : Node → Except TokenError String) :
    Prop where
  /-- Just the entries one edge beyond the levels are left out. -/
  cut (node : Node) : describe node = node.spell (· == levels + 1) limits 0
  whole (node : Node) : node.EmbedsWithin levels →
    describe node = node.spell (fun _ => false) limits 0
  /-- A replacement beyond the levels is not seen. One edge beyond them, an optional slot has to stay
  filled. -/
  blind (node : Node) (path : List Slot) (old new : Option Node) :
    entryAt path (some node) = some old → levels < path.length →
    (new.isSome ∨ levels + 1 < path.length ∨
      entryAt path (replaceAt new path (some node)) = some new) →
    (replaceAt new path (some node)).map describe = some (describe node)

theorem describeEntry_embedsLevels (limits : Limits) (levels : Nat) :
    EmbedsLevels levels limits fun node => describeEntry limits (levels + 1) (some node) where
  cut node := by
    have embeds : embedEntry limits node.kind levels =
        spellEntry (· == levels + 1) limits node.kind 1 :=
      funext (embedEntry_eq_spellEntry (Nat.add_comm 1 levels))
    rw [describeEntry_some, embeds, Node.spell_eq_describeAt]
  whole node shallow := by
    rw [describeEntry_some, Node.spell_eq_describeAt]
    apply Shape.describeAt_congr
    intro slot entry held
    apply embedEntry_eq_spellEntry_whole
    intro path last reached
    have extended : entryAt (slot :: path) (some node) = some last := by
      simp [entryAt, held, reached]
    exact shallow _ _ extended
  blind node path old new reached deep seen := by
    have stands : path.length = levels + 1 →
        entryAt path (replaceAt new path (some node)) = some new := by
      intro level
      rcases seen with filled | deeper | stands
      · obtain ⟨child, rfl⟩ := Option.isSome_iff_exists.mp filled
        exact entryAt_replaceAt_some child reached
      · omega
      · exact stands
    have same : describeEntry limits (levels + 1) (replaceAt new path (some node)) =
        describeEntry limits (levels + 1) (some node) := describeEntry_replaceAt reached deep stands
    cases path with
    | nil => simp at deep
    | cons slot path =>
        obtain ⟨_, entry, ⟨⟩, held, -⟩ := entryAt_cons reached
        rw [replaceAt_cons new held] at same ⊢
        exact congrArg some same

def Node.wrapped (node : Node) : Nat → Node
  | 0 => node
  | count + 1 => ⟨.unknown, .expressionStmt (some (node.wrapped count))⟩

/-- Under any limits, a description embeds sixteen levels, and is the whole one where there are no
more. -/
theorem Node.description_embeds_sixteen_levels (limits : Limits) :
    EmbedsLevels 16 limits (Node.description limits) :=
  describeEntry_embedsLevels limits 16

/-- A slot that is embedded even if it stands empty can be emptied one edge beyond the levels. -/
theorem Node.description_overlooks_emptied_operand :
    let null : Node := ⟨.unknown, .nullLiteral⟩
    let node : Node := Node.wrapped ⟨.unknown, .assignment (some null) (some null)⟩ 16
    let path := List.replicate 16 Slot.expr ++ [Slot.right]
    entryAt path (some node) = some (some null) ∧
      (replaceAt none path (some node)).map (Node.description .endless) =
        some (node.description .endless) :=
  ⟨rfl, (description_embeds_sixteen_levels .endless).blind _ _ _ _ rfl (by decide) (.inr (.inr rfl))⟩

theorem Node.describeEntry_wrapped (levels : Nat) (node : Node) :
    describeEntry .endless (levels + 2) (some (node.wrapped (levels + 1))) =
      (fun text => "ExpressionStmt(" ++ text ++ ")" ++ " @ " ++ "0:0") <$>
        describeEntry .endless (levels + 1) (some (node.wrapped levels)) := by
  have inside : embedEntry .endless .expressionStmt (levels + 1) (some (node.wrapped levels)) =
      describeEntry .endless (levels + 1) (some (node.wrapped levels)) := rfl
  rw [wrapped, describeEntry_some, kind, Shape.kind, Shape.describeAt, Shape.describe, inside]
  rcases describeEntry .endless (levels + 1) (some (node.wrapped levels)) with error | text <;> rfl

theorem Node.describeEntry_of_wrapped {levels : Nat} {node other : Node}
    (same : describeEntry .endless (levels + 1) (some (node.wrapped levels)) =
      describeEntry .endless (levels + 1) (some (other.wrapped levels))) :
    describeEntry .endless 1 (some node) = describeEntry .endless 1 (some other) := by
  induction levels with
  | zero => exact same
  | succ levels ih =>
      apply ih
      rw [describeEntry_wrapped, describeEntry_wrapped] at same
      revert same
      rcases describeEntry .endless (levels + 1) (some (node.wrapped levels)) with error | text <;>
        rcases describeEntry .endless (levels + 1) (some (other.wrapped levels)) with error' | text' <;>
        simp [Functor.map, Except.map]

/-- An optional slot that is emptied one edge beyond the levels is seen: `Return(...)` turns into
`Return()`. -/
theorem Node.description_sees_emptied_return :
    let null : Node := ⟨.unknown, .nullLiteral⟩
    let node : Node := Node.wrapped ⟨.unknown, .returnStmt (some null)⟩ 16
    let path := List.replicate 17 Slot.expr
    entryAt path (some node) = some (some null) ∧
      (replaceAt none path (some node)).map (Node.description .endless) ≠
        some (node.description .endless) := by
  intro null node path
  refine ⟨rfl, ?_⟩
  intro same
  have emptied : replaceAt none path (some node) =
      some (Node.wrapped ⟨.unknown, .returnStmt none⟩ 16) := rfl
  rw [emptied] at same
  have texts := describeEntry_of_wrapped (Option.some.inj same)
  have ended : "Return() @ 0:0" = "Return(...) @ 0:0" := Except.ok.inj texts
  exact absurd ended (by decide)

end PhpLint
