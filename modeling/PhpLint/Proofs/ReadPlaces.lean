import Mathlib.Data.List.Forall2
import PhpLint.Proofs.TokenSources

/-! What descriptions read. A description depends on the nodes within its levels and on those that
the tokens of array items are made up from, at whatever depth; no other node has a say in it. -/

namespace PhpLint

section Frames

variable {α β : Type}

/-- The shape with its children forgotten, those in the branches of a conditional too: own data, and
which slots are filled. -/
def Shape.frame : Shape α → Shape Unit
  | .identifier name => .identifier name
  | .variableRef name => .variableRef name
  | .stringLiteral value => .stringLiteral value
  | .integerLiteral value => .integerLiteral value
  | .floatLiteral value => .floatLiteral value
  | .booleanLiteral value => .booleanLiteral value
  | .nullLiteral => .nullLiteral
  | .interpolatedString parts => .interpolatedString (slots parts)
  | .comment value => .comment value
  | .assignment left right => .assignment (slot left) (slot right)
  | .binaryExpr left operator right => .binaryExpr (slot left) operator (slot right)
  | .functionCall name args => .functionCall name (slots args)
  | .methodCall receiver method args => .methodCall (slot receiver) method (slots args)
  | .creation className args => .creation className (slots args)
  | .array elements long => .array (slots elements) long
  | .arrayItem key value byRef unpack => .arrayItem (slot key) (slot value) byRef unpack
  | .keyValue key value => .keyValue (slot key) (slot value)
  | .arrayAccess base index => .arrayAccess (slot base) (slot index)
  | .parameter name typeHint default => .parameter name typeHint (slot default)
  | .functionDecl name params body => .functionDecl name (slots params) (slots body)
  | .functionDef name visibility modifiers returnType params body =>
    .functionDef name visibility modifiers returnType (slots params) (slots body)
  | .returnStmt expr => .returnStmt (slot expr)
  | .expressionStmt expr => .expressionStmt (slot expr)
  | .ifStmt condition body elseIfs otherwise =>
    .ifStmt (slot condition) (slots body)
      (elseIfs.map fun _ => ⟨.unknown, none, []⟩) (otherwise.map fun _ => ⟨.unknown, []⟩)
  | .elseIf condition body => .elseIf (slot condition) (slots body)
  | .elseBranch body => .elseBranch (slots body)
  | .whileStmt condition body => .whileStmt (slot condition) (slots body)
  | .property name visibility => .property name visibility
  | .classDecl name parent interfaces properties methods =>
    .classDecl name parent interfaces (slots properties) (slots methods)
  | .foreign kind text children => .foreign kind text (slots children)
where
  slot (child : Option α) : Option Unit := child.map fun _ => ()
  slots (children : List (Option α)) : List (Option Unit) := children.map (Option.map fun _ => ())

theorem Shape.slotEntry_frame (shape : Shape α) (slot : Slot) :
    shape.frame.slotEntry slot = (shape.slotEntry slot).map (Option.map fun _ => ()) := by
  cases shape <;> cases slot <;> first
    | rfl
    | simp [frame, frame.slot, frame.slots, slotEntry, Option.map_map, Function.comp_def]

theorem Shape.tokenEntry_frame (shape : Shape α) (index : Nat) :
    shape.frame.tokenEntry index = (shape.tokenEntry index).map (Option.map fun _ => ()) := by
  cases shape with
  | arrayItem key value byRef unpack =>
      rcases index with - | - | index
      · cases key <;> rfl
      · rfl
      · rfl
  | _ => simp [frame, tokenEntry]

theorem Shape.tokenSources_frame (shape : Shape α) :
    shape.frame.tokenSources = shape.tokenSources.map (Option.map fun _ => ()) := by
  cases shape <;> rfl

theorem Shape.ownToken_frame (limits : Limits) (shape : Shape α) :
    shape.frame.ownToken limits = shape.ownToken limits := by
  cases shape with
  | arrayItem key value byRef unpack => cases key <;> rfl
  | _ => rfl

theorem Shape.kind_frame (shape : Shape α) : shape.frame.kind = shape.kind := by
  cases shape <;> rfl

theorem Shape.isLocated_frame (shape : Shape α) : shape.frame.isLocated = shape.isLocated := by
  cases shape <;> rfl

theorem Shape.kind_eq_of_frame {shape other : Shape α} (same : shape.frame = other.frame) :
    shape.kind = other.kind := by
  rw [← kind_frame shape, same, kind_frame]

theorem map_eq_of_filled {text : Option α → β} {first second : Option (Option α)}
    (filled : first.map (Option.map fun _ => ()) = second.map (Option.map fun _ => ()))
    (same : ∀ child other, first = some (some child) → second = some (some other) →
      text (some child) = text (some other)) : first.map text = second.map text := by
  rcases first with _ | _ | child <;> rcases second with _ | _ | other <;> first
    | (cases filled; done)
    | rfl
    | exact congrArg some (same child other rfl rfl)

variable {m : Type → Type} [Monad m] {decimal : Int → m String} {embed token : Option α → m String}

theorem ifPresent_of_filled (around : m String → m String) {text : Option α → m String}
    {slot other : Option α} (same : (slot.map some).map text = (other.map some).map text) :
    ifPresent (fun entry => around (text entry)) slot =
      ifPresent (fun entry => around (text entry)) other := by
  cases slot <;> cases other
  · rfl
  · cases same
  · cases same
  · exact congrArg around (Option.some.inj same)

namespace Shape

/-- Shapes with two operands. -/
theorem describe_operands {left right otherLeft otherRight : Option α}
    (lefts : embed left = embed otherLeft) (rights : embed right = embed otherRight) :
    (assignment left right).describe decimal embed token =
        (assignment otherLeft otherRight).describe decimal embed token ∧
      ∀ operator, (binaryExpr left operator right).describe decimal embed token =
        (binaryExpr otherLeft operator otherRight).describe decimal embed token := by
  constructor
  · simp only [describe, lefts, rights]
  · intro operator
    simp only [describe, lefts, rights]

/-- Shapes with one slot that is shown even if it stands empty; of what else they hold nothing is. -/
theorem describe_clause {entry other : Option α} (same : embed entry = embed other)
    (body otherBody : List (Option α)) (elseIfs otherElseIfs : List (ElseIf α))
    (otherwise otherOtherwise : Option (Else α)) :
    (expressionStmt entry).describe decimal embed token =
        (expressionStmt other).describe decimal embed token ∧
      (ifStmt entry body elseIfs otherwise).describe decimal embed token =
        (ifStmt other otherBody otherElseIfs otherOtherwise).describe decimal embed token ∧
      (elseIf entry body).describe decimal embed token =
        (elseIf other otherBody).describe decimal embed token ∧
      (whileStmt entry body).describe decimal embed token =
        (whileStmt other otherBody).describe decimal embed token := by
  refine ⟨?_, ?_, ?_, ?_⟩ <;> simp only [describe, same]

/-- Shapes with one slot that is shown if it is filled. -/
theorem describe_optional {entry other : Option α}
    (same : (entry.map some).map embed = (other.map some).map embed) :
    (returnStmt entry).describe decimal embed token =
        (returnStmt other).describe decimal embed token ∧
      ∀ name typeHint, (parameter name typeHint entry).describe decimal embed token =
        (parameter name typeHint other).describe decimal embed token := by
  constructor
  · exact congrArg (· >>= _) (ifPresent_of_filled id same)
  · intro name typeHint
    exact congrArg (· >>= _) (ifPresent_of_filled (· >>= _) same)

/-- Shapes with a slot that is shown if it is filled and one that is shown anyway. -/
theorem describe_pair {first second otherFirst otherSecond : Option α}
    (firsts : (first.map some).map embed = (otherFirst.map some).map embed)
    (seconds : embed second = embed otherSecond) :
    (keyValue first second).describe decimal embed token =
        (keyValue otherFirst otherSecond).describe decimal embed token ∧
      (arrayAccess second first).describe decimal embed token =
        (arrayAccess otherSecond otherFirst).describe decimal embed token := by
  constructor
  · simp only [describe, seconds]
    exact congrArg (· >>= _) (ifPresent_of_filled (· >>= _) firsts)
  · simp only [describe, seconds]
    exact congrArg (· >>= _) (ifPresent_of_filled id firsts)

theorem describe_item {key value otherKey otherValue : Option α} (byRef unpack : Bool)
    (keys : (key.map some).map token = (otherKey.map some).map token)
    (values : token value = token otherValue) :
    (arrayItem key value byRef unpack).describe decimal embed token =
      (arrayItem otherKey otherValue byRef unpack).describe decimal embed token := by
  simp only [describe, values]
  exact congrArg (· >>= _) (ifPresent_of_filled (· >>= _) keys)

variable [LawfulMonad m]

/-- The text of a shape is made from its frame, what it embeds and the tokens it shows. -/
theorem describe_of_frame {shape other : Shape α} (same : shape.frame = other.frame)
    (embeds : ∀ slot, (shape.slotEntry slot).map embed = (other.slotEntry slot).map embed)
    (tokens : ∀ index, (shape.tokenEntry index).map token = (other.tokenEntry index).map token) :
    shape.describe decimal embed token = other.describe decimal embed token := by
  have kinds := kind_eq_of_frame same
  -- of all pairs of shapes, only those of one kind are left
  cases shape <;> cases other <;> first
    | (cases kinds; done)
    | skip
  case assignment.assignment =>
    exact (describe_operands (Option.some.inj (embeds .left)) (Option.some.inj (embeds .right))).1
  case binaryExpr.binaryExpr =>
    injection same with _ operators
    rw [operators]
    exact (describe_operands (Option.some.inj (embeds .left)) (Option.some.inj (embeds .right))).2 _
  case array.array elements _ others _ =>
    have texts : elements.map embed = others.map embed := by
      apply List.ext_getElem?
      intro index
      rw [List.getElem?_map, List.getElem?_map]
      exact embeds (.element index)
    simp only [describe, mapM_eq_of_map_eq texts]
  case arrayItem.arrayItem =>
    injection same with _ _ marks spreads
    rw [marks, spreads]
    exact describe_item _ _ (tokens 0) (Option.some.inj (tokens 1))
  case keyValue.keyValue =>
    exact (describe_pair (embeds .key) (Option.some.inj (embeds .value))).1
  case arrayAccess.arrayAccess =>
    exact (describe_pair (embeds .index) (Option.some.inj (embeds .base))).2
  case parameter.parameter =>
    injection same with names hints
    rw [names, hints]
    exact (describe_optional (embeds .default)).2 _ _
  case returnStmt.returnStmt => exact (describe_optional (embeds .expr)).1
  case expressionStmt.expressionStmt =>
    exact (describe_clause (Option.some.inj (embeds .expr)) [] [] [] [] none none).1
  case ifStmt.ifStmt => exact (describe_clause (Option.some.inj (embeds .condition)) ..).2.1
  case elseIf.elseIf =>
    exact (describe_clause (Option.some.inj (embeds .condition)) _ _ [] [] none none).2.2.1
  case whileStmt.whileStmt =>
    exact (describe_clause (Option.some.inj (embeds .condition)) _ _ [] [] none none).2.2.2
  all_goals
    injection same
    subst_vars
    rfl

end Shape

end Frames

theorem Node.token_of_frame {node other : Node} (same : node.shape.frame = other.shape.frame)
    (sources : ∀ limits, tokens limits node.shape.tokenSources =
      tokens limits other.shape.tokenSources) (limits : Limits) :
    node.token limits = other.token limits := by
  have kinds : node.kind = other.kind := Shape.kind_eq_of_frame same
  rcases node.token_cases with ⟨joins, made⟩ | ⟨alone, -, own⟩
  · rcases other.token_cases with ⟨-, otherMade⟩ | ⟨otherAlone, -, -⟩
    · rw [made, otherMade, kinds]
      exact Limits.spend_congr (sources _)
    · rw [kinds, otherAlone] at joins
      cases joins
  · rcases other.token_cases with ⟨otherJoins, -⟩ | ⟨-, -, otherOwn⟩
    · rw [kinds, otherJoins] at alone
      cases alone
    · rw [own, otherOwn, kinds]
      apply Limits.spend_congr
      rw [← Shape.ownToken_frame, same, Shape.ownToken_frame]

/-- What a node is by itself: its place and its frame. -/
def Node.frame (node : Node) : Position × Shape Unit := (node.pos, node.shape.frame)

/-- The frame of the node that stands at a place at or below an entry. -/
def frameAt (entry : Option Node) (place : Path) : Option (Position × Shape Unit) :=
  (nodeAt [entry] (0 :: place)).map Node.frame

theorem frameAt_cons (node : Node) (index : Nat) (place : Path) :
    frameAt (some node) (index :: place) = frameAt node.slots[index]?.join place := by
  rw [frameAt, frameAt, nodeAt_present, if_neg (List.cons_ne_nil index place), nodeAt]
  cases node.slots[index]?.join with
  | none => rfl
  | some child => rw [nodeAt_present]; rfl

theorem frameAt_below {node : Node} {index : Nat} {entry : Option Node}
    (held : node.slots[index]? = some entry) (place : Path) :
    frameAt (some node) (index :: place) = frameAt entry place := by
  rw [frameAt_cons, held]
  rfl

theorem Node.frame_of_frameAt {node : Node} {other : Option Node}
    (same : frameAt (some node) [] = frameAt other []) :
    ∃ replaced, other = some replaced ∧ node.frame = replaced.frame := by
  cases other with
  | none => cases same
  | some replaced => exact ⟨replaced, rfl, Option.some.inj same⟩

/-- The number of the slot among all slots of a node. -/
def Slot.number : Slot → Nat
  | .left | .key | .base | .default | .expr | .condition => 0
  | .right | .value | .index => 1
  | .element number => number

theorem Node.slots_of_slotEntry {node : Node} {slot : Slot} {entry : Option Node}
    (holds : node.shape.slotEntry slot = some entry) : node.slots[slot.number]? = some entry := by
  obtain ⟨pos, shape⟩ := node
  cases slot <;> cases shape <;> simp only [Shape.slotEntry, reduceCtorEq] at holds
  case element.array =>
    simpa [slots, fields, ownFields, Field.nodes, Field.flag, Slot.number] using holds
  all_goals first
    | exact holds
    | obtain ⟨child, rfl, rfl⟩ := Option.map_eq_some_iff.mp holds; rfl

theorem Node.slots_of_tokenEntry {node : Node} {index : Nat} {entry : Option Node}
    (held : node.shape.tokenEntry index = some entry) : node.slots[index]? = some entry := by
  obtain ⟨pos, shape⟩ := node
  cases shape with
  | arrayItem key value byRef unpack =>
      match index with
      | 0 =>
          obtain ⟨child, rfl, rfl⟩ := Option.map_eq_some_iff.mp held
          rfl
      | 1 => exact held
  | _ => simp [Shape.tokenEntry] at held

theorem Node.slots_of_tokenSources {node : Node} {index : Nat} {source : Option Node}
    (held : node.shape.tokenSources[index]? = some source) : node.slots[index]? = some source := by
  obtain ⟨pos, shape⟩ := node
  cases shape with
  | interpolatedString parts =>
      simpa [slots, fields, ownFields, Field.nodes, Shape.tokenSources] using held
  | expressionStmt expr => exact held
  | _ => simp [Shape.tokenSources] at held

/-- Two entries with the same frames wherever the token of the first is made up from. -/
def SameSources (entry other : Option Node) : Prop :=
  ∀ path source, sourceAt path entry = some source → frameAt entry path = frameAt other path

theorem SameSources.sources {node other : Node} (same : SameSources (some node) (some other)) :
    List.Forall₂ SameSources node.shape.tokenSources other.shape.tokenSources := by
  have frames : node.frame = other.frame := Option.some.inj (same [] _ rfl)
  have filled : node.shape.tokenSources.map (Option.map fun _ => ()) =
      other.shape.tokenSources.map (Option.map fun _ => ()) := by
    rw [← Shape.tokenSources_frame, ← Shape.tokenSources_frame]
    exact congrArg (Shape.tokenSources ∘ Prod.snd) frames
  have lengths : node.shape.tokenSources.length = other.shape.tokenSources.length := by
    simpa using congrArg List.length filled
  rw [List.forall₂_iff_get]
  refine ⟨lengths, ?_⟩
  intro index bound otherBound path source reached
  have held := List.getElem?_eq_getElem bound
  have otherHeld := List.getElem?_eq_getElem otherBound
  rw [List.get_eq_getElem] at reached ⊢
  rw [List.get_eq_getElem, ← frameAt_below (Node.slots_of_tokenSources held),
    ← frameAt_below (Node.slots_of_tokenSources otherHeld)]
  apply same (index :: path) source
  rw [sourceAt, held]
  exact reached

/-- Tokens are the same for the same sources. -/
theorem tokens_of_sameSources (entries others : Forest)
    (same : List.Forall₂ SameSources entries others) (limits : Limits) :
    tokens limits entries = tokens limits others := by
  -- by size, since most nodes have children that their token is not made up from
  induction entries using forest_size_induction generalizing others limits with
  | nil =>
      cases same
      rfl
  | missing rest _ =>
      obtain ⟨other, others, first, -, rfl⟩ := List.forall₂_cons_left_iff.mp same
      obtain rfl : other = none := by
        cases other with
        | none => rfl
        | some replaced => cases first [] none rfl
      rfl
  | present node rest below after =>
      obtain ⟨other, others, first, later, rfl⟩ := List.forall₂_cons_left_iff.mp same
      obtain ⟨other, rfl, frames⟩ := Node.frame_of_frameAt (first [] _ rfl)
      have sources := below _ node.forestSize_tokenSources_lt _ first.sources
      have own := Node.token_of_frame (congrArg Prod.snd frames) sources limits
      rw [tokens, tokens, slotToken, slotToken, own, after others later]

theorem slotToken_of_sameSources {entry other : Option Node} (same : SameSources entry other)
    (limits : Limits) : slotToken limits entry = slotToken limits other := by
  have whole := tokens_of_sameSources [entry] [other] (.cons same .nil) limits
  rwa [tokens_singleton, tokens_singleton] at whole

/-- The entry whose token is shown by the array item at the end of a route of embedding edges. -/
def shownAt (route : List Slot) (index : Nat) (entry : Option Node) : Option (Option Node) :=
  (entryAt route entry).join.bind fun item => item.shape.tokenEntry index

theorem shownAt_cons {node : Node} {slot : Slot} {entry : Option Node}
    (holds : node.shape.slotEntry slot = some entry) (route : List Slot) (index : Nat) :
    shownAt (slot :: route) index (some node) = shownAt route index entry := by
  rw [shownAt, entryAt, holds]
  rfl

theorem frameAt_shownAt {route : List Slot} {index : Nat} {root entry : Option Node}
    (shown : shownAt route index root = some entry) (place : Path) :
    frameAt root (route.map Slot.number ++ index :: place) = frameAt entry place := by
  induction route generalizing root with
  | nil =>
      cases root with
      | none => cases shown
      | some node => exact frameAt_below (Node.slots_of_tokenEntry shown) place
  | cons slot route ih =>
      cases root with
      | none => cases shown
      | some node =>
          cases holds : node.shape.slotEntry slot with
          | none => simp [shownAt, entryAt, holds] at shown
          | some child =>
              rw [shownAt_cons holds] at shown
              rw [List.map_cons, List.cons_append, frameAt_below (Node.slots_of_slotEntry holds)]
              exact ih shown

theorem Node.describeAt_of_frame {decimal : Int → Except TokenError String}
    {embed token : Option Node → Except TokenError String}
    {node other : Node} (same : node.frame = other.frame)
    (embeds : ∀ slot child replaced, node.shape.slotEntry slot = some (some child) →
      other.shape.slotEntry slot = some (some replaced) → embed (some child) = embed (some replaced))
    (tokens : ∀ index entry replaced, node.shape.tokenEntry index = some entry →
      other.shape.tokenEntry index = some replaced → token entry = token replaced) :
    node.shape.describeAt node.pos decimal embed token =
      other.shape.describeAt other.pos decimal embed token := by
  obtain ⟨positions, frames⟩ := Prod.mk.inj same
  have texts : node.shape.describe decimal embed token = other.shape.describe decimal embed token := by
    apply Shape.describe_of_frame frames
    · intro slot
      apply map_eq_of_filled
      · rw [← Shape.slotEntry_frame, frames, Shape.slotEntry_frame]
      · exact embeds slot
    · intro index
      apply map_eq_of_filled
      · rw [← Shape.tokenEntry_frame, frames, Shape.tokenEntry_frame]
      · intro child replaced
        exact tokens index (some child) (some replaced)
  have locations : node.shape.isLocated = other.shape.isLocated := by
    rw [← Shape.isLocated_frame, frames, Shape.isLocated_frame]
  rw [Shape.describeAt, Shape.describeAt, texts, locations, positions]

/-- Descriptions are the same for the same frames at all levels embedded and the same tokens shown. -/
theorem Node.describeEntry_of_frames {levels : Nat} {limits : Limits} {node other : Node}
    (frames : ∀ place, place.length ≤ levels →
      frameAt (some node) place = frameAt (some other) place)
    (tokens : ∀ route index entry replaced, route.length ≤ levels →
      shownAt route index (some node) = some entry →
      shownAt route index (some other) = some replaced →
      ∀ limits, slotToken limits entry = slotToken limits replaced) :
    describeEntry limits (levels + 1) (some node) = describeEntry limits (levels + 1) (some other) := by
  induction levels generalizing limits node other with
  | zero =>
      have own : node.frame = other.frame := Option.some.inj (frames [] (Nat.le_refl 0))
      have kinds : node.kind = other.kind := Shape.kind_eq_of_frame (congrArg Prod.snd own)
      rw [describeEntry_some, describeEntry_some, kinds]
      apply describeAt_of_frame own
      · intros
        rfl
      · intro index entry replaced shown otherShown
        exact tokens [] index entry replaced (Nat.le_refl 0) shown otherShown limits
  | succ levels ih =>
      have own : node.frame = other.frame := Option.some.inj (frames [] (Nat.zero_le _))
      have kinds : node.kind = other.kind := Shape.kind_eq_of_frame (congrArg Prod.snd own)
      rw [describeEntry_some, describeEntry_some, kinds]
      apply describeAt_of_frame own
      · intro slot child replaced holds otherHolds
        apply Limits.spend_congr
        apply ih
        · intro place short
          rw [← frameAt_below (slots_of_slotEntry holds),
            ← frameAt_below (slots_of_slotEntry otherHolds)]
          exact frames (slot.number :: place) (Nat.succ_le_succ short)
        · intro route index entry last short shown otherShown
          rw [← shownAt_cons holds] at shown
          rw [← shownAt_cons otherHolds] at otherShown
          exact tokens (slot :: route) index entry last (Nat.succ_le_succ short) shown otherShown
      · intro index entry replaced shown otherShown
        exact tokens [] index entry replaced (Nat.zero_le _) shown otherShown limits

/-- The places that a description reads for the tokens it shows. -/
def Node.ReadsTokenAt (node : Node) (place : Path) : Prop :=
  ∃ route index entry path source, route.length ≤ descriptionDepth ∧
    shownAt route index (some node) = some entry ∧ sourceAt path entry = some source ∧
    place = route.map Slot.number ++ index :: path

theorem sourceAt_of_isPrefix {part path : Path} {entry source : Option Node} (within : part <+: path)
    (reached : sourceAt path entry = some source) : ∃ earlier, sourceAt part entry = some earlier := by
  obtain ⟨rest, rfl⟩ := within
  induction part generalizing entry with
  | nil => exact ⟨entry, rfl⟩
  | cons index part ih =>
      cases entry with
      | none => cases reached
      | some node =>
          obtain ⟨next, held, below⟩ := Option.bind_eq_some_iff.mp reached
          obtain ⟨earlier, found⟩ := ih below
          exact ⟨earlier, by rw [sourceAt, held]; exact found⟩

/-- Beyond the levels embedded, a place on the way to one that is read is read as well. -/
theorem Node.readsTokenAt_of_isPrefix {node : Node} {part place : Path}
    (deep : descriptionDepth < part.length) (within : part <+: place)
    (reads : node.ReadsTokenAt place) : node.ReadsTokenAt part := by
  obtain ⟨route, index, entry, path, source, short, shown, reached, rfl⟩ := reads
  obtain ⟨rest, joined⟩ := within
  have longer : (route.map Slot.number).length < part.length := by
    rw [List.length_map]
    exact Nat.lt_of_le_of_lt short deep
  -- the part goes beyond the route, so it ends at a source on the way
  rcases List.append_eq_append_iff.mp joined with ⟨gap, earlier, -⟩ | ⟨later, rfl, split⟩
  · rw [earlier, List.length_append] at longer
    exact absurd longer (Nat.not_lt.mpr (Nat.le_add_right _ _))
  · cases later with
    | nil =>
        rw [List.append_nil] at longer
        exact absurd longer (Nat.lt_irrefl _)
    | cons first tail =>
        obtain ⟨rfl, same⟩ := List.cons.inj split
        obtain ⟨earlier, found⟩ := sourceAt_of_isPrefix ⟨rest, same.symm⟩ reached
        exact ⟨route, index, entry, tail, earlier, short, shown, found, rfl⟩

theorem Node.description_of_frames {node other : Node}
    (agree : ∀ place, place.length ≤ descriptionDepth ∨ node.ReadsTokenAt place →
      frameAt (some node) place = frameAt (some other) place) (limits : Limits) :
    node.description limits = other.description limits := by
  apply describeEntry_of_frames
  · intro place short
    exact agree place (.inl short)
  · intro route index entry replaced short shown otherShown
    apply slotToken_of_sameSources
    intro path source reached
    rw [← frameAt_shownAt shown, ← frameAt_shownAt otherShown]
    exact agree _ (.inr ⟨route, index, entry, path, source, short, shown, reached, rfl⟩)

/-- A description depends only on the nodes within the levels it embeds and on those it reads for the
tokens it shows. So whatever else is put in at a place beyond these levels that no token is read from,
the description stays the same, and fails the same way if it does. -/
theorem Node.description_reads_levels_and_tokens (node other : Node) :
    ((∀ place, place.length ≤ descriptionDepth ∨ node.ReadsTokenAt place →
        frameAt (some node) place = frameAt (some other) place) →
      ∀ limits, node.description limits = other.description limits) ∧
    ∀ place, descriptionDepth < place.length → ¬node.ReadsTokenAt place →
      (∀ elsewhere, ¬place <+: elsewhere →
        frameAt (some node) elsewhere = frameAt (some other) elsewhere) →
      ∀ limits, node.description limits = other.description limits := by
  refine ⟨description_of_frames, ?_⟩
  intro place deep unread agree
  apply description_of_frames
  intro read reads
  apply agree
  intro within
  rcases reads with short | reads
  · exact absurd (Nat.le_trans within.length_le short) (Nat.not_le.mpr deep)
  · exact unread (readsTokenAt_of_isPrefix deep within reads)

theorem frameAt_wrapped (node other : Node) (count : Nat) (place : Path)
    (outside : ¬List.replicate count 0 <+: place) :
    frameAt (some (node.wrapped count)) place = frameAt (some (other.wrapped count)) place := by
  induction count generalizing place with
  | zero => exact absurd List.nil_prefix outside
  | succ count ih =>
      match place with
      | [] => rfl
      | 0 :: place =>
          rw [frameAt_cons, frameAt_cons]
          apply ih
          intro within
          exact outside (List.cons_prefix_cons.mpr ⟨rfl, within⟩)
      | (index + 1) :: place =>
          rw [frameAt_cons, frameAt_cons]
          rfl

theorem shownAt_wrapped (name : String) (count : Nat) (route : List Slot) (index : Nat) :
    shownAt route index (some (Node.wrapped ⟨.unknown, .identifier name⟩ count)) = none := by
  induction route generalizing count with
  | nil => cases count <;> simp [shownAt, entryAt, Node.wrapped, Shape.tokenEntry]
  | cons slot route ih =>
      cases count with
      | zero => cases slot <;> rfl
      | succ count =>
          cases slot
          case expr => exact ih count
          all_goals rfl

/-- The name in eighteen statements around one another is overlooked. -/
theorem Node.description_overlooks_wrapped_name :
    let node : Node := Node.wrapped ⟨.unknown, .identifier "a"⟩ 18
    let other : Node := Node.wrapped ⟨.unknown, .identifier "b"⟩ 18
    let place : Path := List.replicate 18 0
    frameAt (some node) place ≠ frameAt (some other) place ∧
    (∀ place, place.length ≤ descriptionDepth ∨ node.ReadsTokenAt place →
      frameAt (some node) place = frameAt (some other) place) ∧
    (descriptionDepth < place.length ∧ ¬node.ReadsTokenAt place ∧
      ∀ elsewhere, ¬place <+: elsewhere →
        frameAt (some node) elsewhere = frameAt (some other) elsewhere) ∧
    ∀ limits, node.description limits = other.description limits := by
  intro node other place
  have unread (read : Path) : ¬node.ReadsTokenAt read := by
    rintro ⟨route, index, entry, path, source, -, shown, -⟩
    rw [shownAt_wrapped] at shown
    cases shown
  have agree (elsewhere : Path) (outside : ¬place <+: elsewhere) :
      frameAt (some node) elsewhere = frameAt (some other) elsewhere :=
    frameAt_wrapped _ _ 18 elsewhere outside
  have levels (read : Path) (reads : read.length ≤ descriptionDepth ∨ node.ReadsTokenAt read) :
      frameAt (some node) read = frameAt (some other) read := by
    apply agree
    intro within
    have short : read.length ≤ 16 := reads.resolve_right (unread read)
    have longer : 18 ≤ read.length := within.length_le
    omega
  have replaced := (description_reads_levels_and_tokens node other).2 place (by decide)
    (unread place) agree
  exact ⟨by decide, levels, ⟨by decide, unread place, agree⟩, replaced⟩

/-- The token of an array item is read eighteen levels down, and further as long as there is room. -/
theorem Node.description_reads_beyond_levels :
    let node : Node := .item (some (Node.wrapped ⟨.unknown, .identifier "a"⟩ 17))
    let other : Node := .item (some (Node.wrapped ⟨.unknown, .identifier "b"⟩ 17))
    let deep : Node := .item (some (Node.wrapped ⟨.unknown, .identifier "a"⟩ 997))
    let place : Path := 1 :: List.replicate 17 0
    place.length = 18 ∧
    (∀ elsewhere, ¬place <+: elsewhere →
      frameAt (some node) elsewhere = frameAt (some other) elsewhere) ∧
    node.description .endless = .ok "ArrayItem(a) @ 0:0" ∧
    other.description .endless = .ok "ArrayItem(b) @ 0:0" ∧
    deep.description (.stepwise 997) = .error .tooDeep := by
  intro node other deep place
  refine ⟨rfl, ?_, description_item_wrapped "a" 17, description_item_wrapped "b" 17,
    description_item_of_error (token_wrapped_stepwise _ 997)⟩
  intro elsewhere outside
  match elsewhere with
  | [] => rfl
  | 0 :: below =>
      rw [frameAt_cons, frameAt_cons]
      rfl
  | 1 :: below =>
      rw [frameAt_cons, frameAt_cons]
      apply frameAt_wrapped
      intro within
      exact outside (List.cons_prefix_cons.mpr ⟨rfl, within⟩)
  | (index + 2) :: below =>
      rw [frameAt_cons, frameAt_cons]
      rfl

end PhpLint
