import PhpLint.Proofs.Elision
import PhpLint.Proofs.Occurrences

/-! Where tokens come from. The token of an expression statement or an interpolated string is put
together from the tokens of its children, with no limit to how far down; and the description of an
array item shows tokens. A token fails only where an empty slot is met on the way down, unless the
limits do not allow for it. -/

namespace PhpLint

section Shapes

variable {α : Type}

/-- The entries whose tokens make up the token of a shape. -/
def Shape.tokenSources : Shape α → List (Option α)
  | .interpolatedString parts => parts
  | .expressionStmt expr => [expr]
  | _ => []

/-- The entry of a slot, by its number, that a description shows by its token: the value of an array
item, and its key if there is one. -/
def Shape.tokenEntry : Nat → Shape α → Option (Option α)
  | 0, .arrayItem key _ _ _ => key.map some
  | 1, .arrayItem _ value _ _ => some value
  | _, _ => none

theorem Shape.ownToken_eq_error {limits : Limits} {shape : Shape α} {error : TokenError}
    (failed : shape.ownToken limits = .error error) :
    ∃ value, shape = .integerLiteral value ∧ limits.decimal value = .error error := by
  cases shape with
  | integerLiteral value => exact ⟨value, rfl, failed⟩
  | _ => cases failed

end Shapes

namespace Limits

/-- The integers with no more digits than are written. -/
def Writes (limits : Limits) (value : Int) : Prop :=
  ∀ most ∈ limits.digits, Binary64.decimalWidth value.natAbs ≤ most

instance (limits : Limits) (value : Int) : Decidable (limits.Writes value) :=
  decidable_of_iff _ (within_iff limits.digits (Binary64.decimalWidth value.natAbs))

theorem decimal_eq_ok {limits : Limits} {value : Int} {text : String}
    (written : limits.decimal value = .ok text) : toString value = text := by
  unfold decimal at written
  split at written
  · exact Except.ok.inj written
  · split at written
    · cases written
    · exact Except.ok.inj written

theorem decimal_eq_error {limits : Limits} {value : Int} {error : TokenError}
    (failed : limits.decimal value = .error error) :
    error ≠ .emptySlot ∧ ¬limits.Writes value := by
  unfold decimal at failed
  split at failed
  next => cases failed
  next most bound =>
    split at failed
    next long =>
      cases failed
      refine ⟨TokenError.noConfusion, ?_⟩
      simpa [Writes, bound] using long
    next => cases failed

theorem after_after (limits : Limits) (first second : Nat) :
    (limits.after first).after second = limits.after (first + second) := by
  cases bound : limits.room with
  | none => simp [after, bound]
  | some most => simp [after, bound, Nat.sub_sub]

variable {α : Type} {limits : Limits} {steps : Nat} {go : Limits → Except TokenError α}

theorem spend_eq_ok {result : α} (found : limits.spend steps go = .ok result) :
    limits.hasRoom steps = true ∧ go (limits.after steps) = .ok result := by
  unfold spend at found
  split at found
  next room => exact ⟨room, found⟩
  next => cases found

theorem spend_eq_error {error : TokenError} (failed : limits.spend steps go = .error error) :
    limits.hasRoom steps = false ∧ error = .tooDeep ∨
      limits.hasRoom steps = true ∧ go (limits.after steps) = .error error := by
  unfold spend at failed
  split at failed
  next room => exact .inr ⟨room, failed⟩
  next narrow =>
    cases failed
    exact .inl ⟨Bool.eq_false_iff.mpr narrow, rfl⟩

end Limits

/-- The entry at the end of a path of token sources. -/
def sourceAt : Path → Option Node → Option (Option Node)
  | [], entry => some entry
  | _ :: _, none => none
  | index :: path, some node => node.shape.tokenSources[index]?.bind (sourceAt path)

/-- The steps down to a token source, with those to its own token. -/
def stepsAt (steps : Kind → Nat) : Path → Option Node → Nat
  | _, none => 0
  | [], some node => steps node.kind
  | index :: path, some node =>
    steps node.kind + node.shape.tokenSources[index]?.elim 0 (stepsAt steps path)

def MeetsEmpty (entry : Option Node) : Prop := ∃ path, sourceAt path entry = some none

/-- The limits allow for a token: there is room down to every source, and every integer among them is
written. -/
structure TokenFits (limits : Limits) (entry : Option Node) : Prop where
  room (path : Path) (source : Node) (reached : sourceAt path entry = some (some source)) :
    ∀ most ∈ limits.room, stepsAt limits.tokenSteps path entry ≤ most
  digits (path : Path) (source : Node) (value : Int)
    (reached : sourceAt path entry = some (some source))
    (literal : source.shape = .integerLiteral value) : limits.Writes value

theorem meetsEmpty_none : MeetsEmpty none := ⟨[], rfl⟩

theorem meetsEmpty_some (node : Node) :
    MeetsEmpty (some node) ↔ ∃ source ∈ node.shape.tokenSources, MeetsEmpty source := by
  constructor
  · intro ⟨path, met⟩
    cases path with
    | nil => cases met
    | cons index path =>
        obtain ⟨source, held, below⟩ := Option.bind_eq_some_iff.mp met
        exact ⟨source, List.mem_of_getElem? held, path, below⟩
  · intro ⟨source, member, path, below⟩
    obtain ⟨index, held⟩ := List.mem_iff_getElem?.mp member
    exact ⟨index :: path, by rw [sourceAt, held]; exact below⟩

theorem TokenFits.own {limits : Limits} {node : Node} (fits : TokenFits limits (some node)) :
    limits.hasRoom (limits.tokenSteps node.kind) = true :=
  (limits.hasRoom_iff _).mpr (fits.room [] node rfl)

theorem TokenFits.source {limits : Limits} {node : Node} (fits : TokenFits limits (some node))
    {source : Option Node} (member : source ∈ node.shape.tokenSources) :
    TokenFits (limits.after (limits.tokenSteps node.kind)) source := by
  obtain ⟨index, held⟩ := List.mem_iff_getElem?.mp member
  have below (path : Path) : sourceAt (index :: path) (some node) = sourceAt path source := by
    rw [sourceAt, held]
    rfl
  have steps (path : Path) : stepsAt limits.tokenSteps (index :: path) (some node) =
      limits.tokenSteps node.kind + stepsAt limits.tokenSteps path source := by
    rw [stepsAt, held]
    rfl
  refine ⟨?_, ?_⟩
  · intro path last reached
    have longer := (limits.hasRoom_iff _).mpr (fits.room _ _ ((below path).trans reached))
    rw [steps, Limits.hasRoom_add, Bool.and_eq_true] at longer
    exact (Limits.hasRoom_iff _ _).mp longer.2
  · intro path last value reached literal
    exact fits.digits _ _ value ((below path).trans reached) literal

theorem tokens_singleton (limits : Limits) (entry : Option Node) :
    tokens limits [entry] = slotToken limits entry := by
  simp only [tokens]
  cases slotToken limits entry with
  | error error => rfl
  | ok text => simp [bind, Except.bind, pure, Except.pure]

/-- The kinds whose tokens are put together from those of other nodes. -/
def Kind.joinsTokens (kind : Kind) : Bool := [Kind.interpolatedString, .expressionStmt].contains kind

/-- The token of a node: put together from its sources, or its own if it has none. -/
theorem Node.token_cases (node : Node) :
    (node.kind.joinsTokens = true ∧
      ∀ limits, node.token limits = limits.spend (limits.tokenSteps node.kind)
        fun left => tokens left node.shape.tokenSources) ∨
    (node.kind.joinsTokens = false ∧ node.shape.tokenSources = [] ∧
      ∀ limits, node.token limits = limits.spend (limits.tokenSteps node.kind)
        fun left => node.shape.ownToken left) := by
  obtain ⟨pos, shape⟩ := node
  cases shape with
  | interpolatedString parts => exact .inl ⟨rfl, fun limits => by rw [token]; rfl⟩
  | expressionStmt expr =>
      refine .inl ⟨rfl, fun limits => ?_⟩
      simp only [token, Shape.tokenSources, tokens_singleton]
      rfl
  | _ => exact .inr ⟨rfl, rfl, fun limits => by rw [token] <;> first | rfl | simp⟩

theorem Node.forestSize_tokenSources_lt (node : Node) :
    forestSize node.shape.tokenSources < sizeOf node := by
  obtain ⟨pos, shape⟩ := node
  cases shape with
  | interpolatedString parts => exact forestSize_children_lt ⟨pos, .interpolatedString parts⟩
  | expressionStmt expr => exact forestSize_children_lt ⟨pos, .expressionStmt expr⟩
  | _ => exact Nat.lt_of_le_of_lt (Nat.zero_le _) (forestSize_children_lt _)

theorem exists_tokens_cons {limits : Limits} {entry : Option Node} {rest : Forest} {text : String}
    (found : tokens limits (entry :: rest) = .ok text) :
    (∃ first, slotToken limits entry = .ok first) ∧ ∃ others, tokens limits rest = .ok others := by
  rw [tokens] at found
  cases first : slotToken limits entry with
  | error error => rw [first] at found; cases found
  | ok text =>
      cases others : tokens limits rest with
      | error error => rw [first, others] at found; cases found
      | ok others => exact ⟨⟨_, rfl⟩, ⟨_, rfl⟩⟩

/-- Where tokens are found, no empty slot is met. -/
theorem not_meetsEmpty_of_tokens {entries : Forest} {limits : Limits} {text : String}
    (found : tokens limits entries = .ok text) : ∀ entry ∈ entries, ¬MeetsEmpty entry := by
  induction entries using forest_size_induction generalizing limits text with
  | nil =>
      intro entry member
      cases member
  | missing rest _ => cases found
  | present node rest below after =>
      obtain ⟨⟨first, own⟩, others, later⟩ := exists_tokens_cons found
      rw [List.forall_mem_cons]
      refine ⟨?_, after later⟩
      rw [meetsEmpty_some]
      intro ⟨source, member, met⟩
      rcases node.token_cases with ⟨-, made⟩ | ⟨-, none, -⟩
      · rw [slotToken, made] at own
        exact below _ node.forestSize_tokenSources_lt (Limits.spend_eq_ok own).2 source member met
      · rw [none] at member
        cases member

/-- What the token of an entry fails over: an empty slot that is met, or else a limit. -/
def TokenStops (limits : Limits) (entry : Option Node) (error : TokenError) : Prop :=
  error = .emptySlot ∧ MeetsEmpty entry ∨ error ≠ .emptySlot ∧ ¬TokenFits limits entry

theorem tokens_cons_eq_error {limits : Limits} {entry : Option Node} {rest : Forest}
    {error : TokenError} (failed : tokens limits (entry :: rest) = .error error) :
    slotToken limits entry = .error error ∨ tokens limits rest = .error error := by
  rw [tokens] at failed
  cases first : slotToken limits entry with
  | error other =>
      rw [first] at failed
      cases failed
      exact .inl rfl
  | ok text =>
      rw [first] at failed
      cases others : tokens limits rest with
      | error other =>
          rw [others] at failed
          cases failed
          exact .inr rfl
      | ok others => rw [others] at failed; cases failed

theorem tokenStops_of_spend {limits : Limits} {node : Node} {error : TokenError}
    {go : Limits → Except TokenError String}
    (failed : limits.spend (limits.tokenSteps node.kind) go = .error error)
    (inner : go (limits.after (limits.tokenSteps node.kind)) = .error error →
      TokenStops limits (some node) error) : TokenStops limits (some node) error := by
  rcases Limits.spend_eq_error failed with ⟨narrow, rfl⟩ | ⟨-, later⟩
  · refine .inr ⟨TokenError.noConfusion, fun fits => ?_⟩
    rw [fits.own] at narrow
    cases narrow
  · exact inner later

/-- A token that is put together fails over one of its sources; another one only over a limit. -/
theorem Node.tokenStops_of_failed {limits : Limits} {node : Node} {error : TokenError}
    (sources : tokens (limits.after (limits.tokenSteps node.kind)) node.shape.tokenSources =
      .error error → ∃ source ∈ node.shape.tokenSources,
        TokenStops (limits.after (limits.tokenSteps node.kind)) source error)
    (failed : node.token limits = .error error) : TokenStops limits (some node) error := by
  rcases node.token_cases with ⟨-, made⟩ | ⟨-, -, alone⟩
  · rw [made] at failed
    apply tokenStops_of_spend failed
    intro inner
    obtain ⟨source, member, ⟨empty, met⟩ | ⟨other, unfit⟩⟩ := sources inner
    · exact .inl ⟨empty, (meetsEmpty_some node).mpr ⟨source, member, met⟩⟩
    · exact .inr ⟨other, fun fits => unfit (fits.source member)⟩
  · rw [alone] at failed
    apply tokenStops_of_spend failed
    intro inner
    obtain ⟨value, literal, refused⟩ := Shape.ownToken_eq_error inner
    obtain ⟨other, long⟩ := Limits.decimal_eq_error refused
    exact .inr ⟨other, fun fits => long (fits.digits [] node value rfl literal)⟩

theorem tokens_eq_error {entries : Forest} {limits : Limits} {error : TokenError}
    (failed : tokens limits entries = .error error) :
    ∃ entry ∈ entries, TokenStops limits entry error := by
  induction entries using forest_size_induction generalizing limits error with
  | nil => cases failed
  | missing rest _ =>
      cases failed
      exact ⟨none, List.mem_cons_self, .inl ⟨rfl, meetsEmpty_none⟩⟩
  | present node rest below after =>
      rcases tokens_cons_eq_error failed with own | later
      · have stops := node.tokenStops_of_failed (below _ node.forestSize_tokenSources_lt) own
        exact ⟨some node, List.mem_cons_self, stops⟩
      · obtain ⟨entry, member, stops⟩ := after later
        exact ⟨entry, List.mem_cons_of_mem _ member, stops⟩

section Descriptions

theorem exists_bind_iff {ε α β : Type} (x : Except ε α) (next : α → Except ε β) :
    (∃ result, x >>= next = .ok result) ↔ ∃ v, x = .ok v ∧ ∃ result, next v = .ok result := by
  cases x with
  | error error => simp [bind, Except.bind]
  | ok v => simp [bind, Except.bind]

theorem exists_mapM_iff {ε α β : Type} (f : α → Except ε β) (items : List α) :
    (∃ results, items.mapM f = .ok results) ↔ ∀ item ∈ items, ∃ result, f item = .ok result := by
  induction items with
  | nil => simp [pure, Except.pure]
  | cons item rest ih =>
      rw [List.mapM_cons]
      simp only [exists_bind_iff, List.forall_mem_cons, ← ih]
      simp [pure, Except.pure]

theorem exists_ifPresent_iff {ε α : Type} (text : Option α → Except ε String) (slot : Option α) :
    (∃ result, ifPresent text slot = .ok result) ↔
      ∀ child, slot = some child → ∃ result, text (some child) = .ok result := by
  cases slot with
  | none => simp [ifPresent, pure, Except.pure]
  | some child => simp [ifPresent]

theorem Slot.forall_iff {motive : Slot → Prop} :
    (∀ slot, motive slot) ↔ motive .left ∧ motive .right ∧ (∀ index, motive (.element index)) ∧
      motive .key ∧ motive .value ∧ motive .base ∧ motive .index ∧ motive .default ∧ motive .expr ∧
      motive .condition := by
  constructor
  · intro all
    exact ⟨all _, all _, fun _ => all _, all _, all _, all _, all _, all _, all _, all _⟩
  · rintro ⟨left, right, element, key, value, base, index, default, expr, condition⟩ slot
    cases slot <;> first | assumption | exact element _

theorem Shape.forall_tokenEntry_iff {α : Type} {motive : Option α → Prop} (key value : Option α)
    (byRef unpack : Bool) :
    (∀ index entry, (Shape.arrayItem key value byRef unpack).tokenEntry index = some entry →
      motive entry) ↔ (∀ child, key = some child → motive (some child)) ∧ motive value := by
  constructor
  · intro all
    refine ⟨?_, all 1 value rfl⟩
    rintro child rfl
    exact all 0 (some child) rfl
  · rintro ⟨keyed, valued⟩ index entry held
    match index with
    | 0 =>
        obtain ⟨child, rfl, rfl⟩ := Option.map_eq_some_iff.mp held
        exact keyed child rfl
    | 1 => exact Option.some.inj held ▸ valued

variable {decimal : Int → Except TokenError String}
  {embed token : Option Node → Except TokenError String}

/-- A shape is described only if all that its description embeds is, and all tokens that it shows can
be read. -/
theorem Shape.parts_of_describe {shape : Shape Node} {text : String}
    (found : shape.describe decimal embed token = .ok text) :
    (∀ slot entry, shape.slotEntry slot = some entry → ∃ text, embed entry = .ok text) ∧
      ∀ index entry, shape.tokenEntry index = some entry → ∃ text, token entry = .ok text := by
  have described : ∃ text, shape.describe decimal embed token = .ok text := ⟨text, found⟩
  rw [Slot.forall_iff]
  revert described
  cases shape with
  | array elements long =>
      simp [describe, slotEntry, tokenEntry, exists_bind_iff, exists_mapM_iff, pure, Except.pure,
        List.mem_iff_getElem?]
      exact forall_comm.mp
  | arrayItem key value byRef unpack =>
      rw [forall_tokenEntry_iff]
      simp +contextual [describe, slotEntry, exists_bind_iff, exists_ifPresent_iff, pure, Except.pure]
  | _ =>
      simp +contextual [describe, slotEntry, tokenEntry, exists_bind_iff, exists_ifPresent_iff, pure,
        Except.pure]

/-- All errors of a computation are of one sort. -/
def FailsAs {ε α : Type} (sort : ε → Prop) (x : Except ε α) : Prop :=
  ∀ error, x = .error error → sort error

namespace FailsAs

variable {ε α β : Type} {sort : ε → Prop}

theorem pure (v : α) : FailsAs sort (Pure.pure v : Except ε α) := by
  intro error failed
  cases failed

theorem bind {x : Except ε α} {next : α → Except ε β} (first : FailsAs sort x)
    (later : ∀ v, FailsAs sort (next v)) : FailsAs sort (x >>= next) := by
  intro error failed
  cases x with
  | error other =>
      cases failed
      exact first _ rfl
  | ok v => exact later v error failed

theorem mapM {f : α → Except ε β} {items : List α} (each : ∀ item ∈ items, FailsAs sort (f item)) :
    FailsAs sort (items.mapM f) := by
  induction items with
  | nil => simpa using pure _
  | cons item rest ih =>
      rw [List.forall_mem_cons] at each
      rw [List.mapM_cons]
      exact each.1.bind fun _ => (ih each.2).bind fun _ => pure _

theorem ifPresent {text : Option α → Except ε String} {slot : Option α}
    (each : ∀ entry, slot.map some = some entry → FailsAs sort (text entry)) :
    FailsAs sort (PhpLint.ifPresent text slot) := by
  cases slot with
  | none => exact pure _
  | some child => exact each _ rfl

/-- A description fails as its parts do. -/
theorem describe {sort : TokenError → Prop} {shape : Shape Node}
    (writes : ∀ value, shape = .integerLiteral value → FailsAs sort (decimal value))
    (embeds : ∀ slot entry, shape.slotEntry slot = some entry → FailsAs sort (embed entry))
    (reads : ∀ index entry, shape.tokenEntry index = some entry → FailsAs sort (token entry)) :
    FailsAs sort (shape.describe decimal embed token) := by
  cases shape with
  | integerLiteral value => exact (writes value rfl).bind fun _ => pure _
  | assignment left right =>
      exact (embeds .left left rfl).bind fun _ => (embeds .right right rfl).bind fun _ => pure _
  | binaryExpr left operator right =>
      exact (embeds .left left rfl).bind fun _ => (embeds .right right rfl).bind fun _ => pure _
  | array elements long =>
      have each : FailsAs sort (elements.mapM embed) := by
        apply mapM
        intro entry member
        obtain ⟨index, held⟩ := List.mem_iff_getElem?.mp member
        exact embeds (.element index) entry held
      exact each.bind fun _ => pure _
  | arrayItem key value byRef unpack =>
      have keyed := ifPresent fun entry held =>
        (reads 0 entry held).bind fun text => pure (text ++ " => ")
      exact keyed.bind fun _ => (reads 1 value rfl).bind fun _ => pure _
  | keyValue key value =>
      have keyed := ifPresent fun entry held =>
        (embeds .key entry held).bind fun text => pure (text ++ " => ")
      exact keyed.bind fun _ => (embeds .value value rfl).bind fun _ => pure _
  | arrayAccess base index =>
      have indexed := ifPresent fun entry held => embeds .index entry held
      exact indexed.bind fun _ => (embeds .base base rfl).bind fun _ => pure _
  | parameter name typeHint default =>
      have defaulted := ifPresent fun entry held =>
        (embeds .default entry held).bind fun text => pure (" = " ++ text)
      exact defaulted.bind fun _ => pure _
  | returnStmt expr =>
      exact (ifPresent fun entry held => embeds .expr entry held).bind fun _ => pure _
  | expressionStmt expr => exact (embeds .expr expr rfl).bind fun _ => pure _
  | ifStmt condition body elseIfs otherwise =>
      exact (embeds .condition condition rfl).bind fun _ => pure _
  | elseIf condition body => exact (embeds .condition condition rfl).bind fun _ => pure _
  | whileStmt condition body => exact (embeds .condition condition rfl).bind fun _ => pure _
  | _ => exact pure _

theorem describeAt {sort : TokenError → Prop} {shape : Shape Node} {pos : Position}
    (described : FailsAs sort (shape.describe decimal embed token))
    (line : FailsAs sort (decimal pos.line)) (column : FailsAs sort (decimal pos.column)) :
    FailsAs sort (shape.describeAt pos decimal embed token) := by
  refine described.bind fun text => ?_
  split
  · exact (line.bind fun _ => column.bind fun _ => pure _).bind fun _ => pure _
  · exact pure _

end FailsAs

end Descriptions

section Reach

/-- The entries that a description with so many levels shows by their tokens. -/
def Node.ShowsToken (levels : Nat) (node : Node) (entry : Option Node) : Prop :=
  ∃ route item index, route.length ≤ levels ∧ entryAt route (some node) = some (some item) ∧
    item.shape.tokenEntry index = some entry

theorem Node.showsToken_iff (levels : Nat) (node : Node) (entry : Option Node) :
    node.ShowsToken levels entry ↔
      ∃ item, node.Embeds levels item ∧ ∃ index, item.shape.tokenEntry index = some entry := by
  constructor
  · rintro ⟨route, item, index, short, reached, held⟩
    exact ⟨item, ⟨route, short, reached⟩, index, held⟩
  · rintro ⟨item, ⟨route, short, reached⟩, index, held⟩
    exact ⟨route, item, index, short, reached, held⟩

theorem Node.showsToken_zero (node : Node) (entry : Option Node) :
    node.ShowsToken 0 entry ↔ ∃ index, node.shape.tokenEntry index = some entry := by
  simp only [showsToken_iff, embeds_zero, exists_eq_left]

theorem Node.showsToken_succ (levels : Nat) (node : Node) (entry : Option Node) :
    node.ShowsToken (levels + 1) entry ↔
      (∃ index, node.shape.tokenEntry index = some entry) ∨
      ∃ slot child, node.shape.slotEntry slot = some (some child) ∧ child.ShowsToken levels entry := by
  simp only [showsToken_iff, embeds_succ, or_and_right, exists_or, exists_eq_left]
  grind

theorem Shape.describe_of_describeAt {shape : Shape Node} {pos : Position}
    {decimal : Int → Except TokenError String} {embed token : Option Node → Except TokenError String}
    {text : String} (found : shape.describeAt pos decimal embed token = .ok text) :
    ∃ own, shape.describe decimal embed token = .ok own := by
  rw [describeAt] at found
  cases described : shape.describe decimal embed token with
  | error error => rw [described] at found; cases found
  | ok own => exact ⟨own, rfl⟩

/-- Where a description is found, no token that it shows meets an empty slot. -/
theorem Node.not_meetsEmpty_of_described {levels : Nat} {limits : Limits} {node : Node} {text : String}
    (found : describeEntry limits (levels + 1) (some node) = .ok text) {entry : Option Node}
    (shows : node.ShowsToken levels entry) : ¬MeetsEmpty entry := by
  induction levels generalizing limits node text with
  | zero =>
      obtain ⟨own, described⟩ := Shape.describe_of_describeAt found
      obtain ⟨index, held⟩ := (showsToken_zero node entry).mp shows
      obtain ⟨token, read⟩ := (Shape.parts_of_describe described).2 index entry held
      rw [← tokens_singleton] at read
      exact not_meetsEmpty_of_tokens read entry List.mem_cons_self
  | succ levels ih =>
      obtain ⟨own, described⟩ := Shape.describe_of_describeAt found
      obtain ⟨embeds, reads⟩ := Shape.parts_of_describe described
      rcases (showsToken_succ levels node entry).mp shows with
        ⟨index, held⟩ | ⟨slot, child, holds, below⟩
      · obtain ⟨token, read⟩ := reads index entry held
        rw [← tokens_singleton] at read
        exact not_meetsEmpty_of_tokens read entry List.mem_cons_self
      · obtain ⟨inner, embedded⟩ := embeds slot (some child) holds
        exact ih (Limits.spend_eq_ok embedded).2 below

/-- The steps along a route of embedding edges. -/
def stepsDown (steps : Kind → Nat) : List Slot → Option Node → Nat
  | [], _ => 0
  | _ :: _, none => 0
  | slot :: route, some node =>
    steps node.kind + (node.shape.slotEntry slot).elim 0 (stepsDown steps route)

/-- The limits that a description has left at the end of a route. -/
def Limits.downTo (limits : Limits) (route : List Slot) (node : Node) : Limits :=
  limits.after (stepsDown limits.embeddingSteps route (some node))

theorem Limits.downTo_nil (limits : Limits) (node : Node) : limits.downTo [] node = limits := by
  have nothing : limits.room.map (· - 0) = limits.room := by simp
  rw [downTo, stepsDown, after, nothing]

theorem Limits.downTo_cons (limits : Limits) {slot : Slot} {route : List Slot} {node child : Node}
    (holds : node.shape.slotEntry slot = some (some child)) :
    limits.downTo (slot :: route) node =
      (limits.after (limits.embeddingSteps node.kind)).downTo route child := by
  rw [downTo, downTo, after_after, stepsDown, holds]
  rfl

/-- What the limits have to allow for at a node that a description comes to. -/
structure Node.FitsHere (limits : Limits) (item : Node) : Prop where
  embeds (slot : Slot) (entry : Option Node) (held : item.shape.slotEntry slot = some entry) :
    ∀ most ∈ limits.room, limits.embeddingSteps item.kind ≤ most
  tokens (index : Nat) (entry : Option Node) (held : item.shape.tokenEntry index = some entry) :
    TokenFits limits entry
  integer (value : Int) (literal : item.shape = .integerLiteral value) : limits.Writes value
  line : limits.Writes item.pos.line
  column : limits.Writes item.pos.column

def Node.FitsWithin (levels : Nat) (limits : Limits) (node : Node) : Prop :=
  ∀ route item, route.length ≤ levels → entryAt route (some node) = some (some item) →
    item.FitsHere (limits.downTo route node)

theorem Node.FitsWithin.here {levels : Nat} {limits : Limits} {node : Node}
    (fits : node.FitsWithin levels limits) : node.FitsHere limits := by
  have own := fits [] node (Nat.zero_le _) rfl
  rwa [Limits.downTo_nil] at own

theorem Node.FitsWithin.below {levels : Nat} {limits : Limits} {node child : Node} {slot : Slot}
    (fits : node.FitsWithin (levels + 1) limits)
    (holds : node.shape.slotEntry slot = some (some child)) :
    child.FitsWithin levels (limits.after (limits.embeddingSteps node.kind)) := by
  intro route item short reached
  rw [← Limits.downTo_cons limits holds]
  apply fits (slot :: route) item (Nat.succ_le_succ short)
  rw [entryAt, holds]
  exact reached

/-- Why a description fails: a token that it shows meets an empty slot, or the limits do not allow
for it. -/
def Node.Stops (levels : Nat) (limits : Limits) (node : Node) (error : TokenError) : Prop :=
  error = .emptySlot ∧ (∃ entry, node.ShowsToken levels entry ∧ MeetsEmpty entry) ∨
    error ≠ .emptySlot ∧ ¬node.FitsWithin levels limits

theorem Node.decimal_stops {levels : Nat} {limits : Limits} {node : Node} {value : Int}
    (written : node.FitsHere limits → limits.Writes value) :
    FailsAs (node.Stops levels limits) (limits.decimal value) := by
  intro error failed
  obtain ⟨other, long⟩ := Limits.decimal_eq_error failed
  exact .inr ⟨other, fun fits => long (written fits.here)⟩

theorem Node.slotToken_stops {levels : Nat} {limits : Limits} {node : Node} {index : Nat}
    {entry : Option Node} (held : node.shape.tokenEntry index = some entry) :
    FailsAs (node.Stops levels limits) (slotToken limits entry) := by
  intro error failed
  rw [← tokens_singleton] at failed
  obtain ⟨source, member, blames⟩ := tokens_eq_error failed
  rw [List.mem_singleton.mp member] at blames
  rcases blames with ⟨empty, meets⟩ | ⟨other, narrow⟩
  · exact .inl ⟨empty, entry, ⟨[], node, index, Nat.zero_le _, rfl, held⟩, meets⟩
  · exact .inr ⟨other, fun fits => narrow (fits.here.tokens index entry held)⟩

/-- What stops the description of a child stops that of the node. -/
theorem Node.Stops.of_below {levels : Nat} {limits : Limits} {node child : Node} {slot : Slot}
    {error : TokenError} (holds : node.shape.slotEntry slot = some (some child))
    (stops : child.Stops levels (limits.after (limits.embeddingSteps node.kind)) error) :
    node.Stops (levels + 1) limits error := by
  rcases stops with ⟨empty, entry, below, meets⟩ | ⟨other, narrow⟩
  · exact .inl ⟨empty, entry, (showsToken_succ levels node entry).mpr (.inr ⟨slot, child, holds, below⟩),
      meets⟩
  · exact .inr ⟨other, fun fits => narrow (fits.below holds)⟩

theorem Node.embedEntry_stops {levels : Nat} {limits : Limits} {node : Node} {slot : Slot}
    {entry : Option Node} (held : node.shape.slotEntry slot = some entry)
    (below : FailsAs (node.Stops levels limits)
      (describeEntry (limits.after (limits.embeddingSteps node.kind)) levels entry)) :
    FailsAs (node.Stops levels limits) (embedEntry limits node.kind levels entry) := by
  intro error failed
  rcases Limits.spend_eq_error failed with ⟨narrow, rfl⟩ | ⟨-, failed⟩
  · refine .inr ⟨TokenError.noConfusion, fun fits => ?_⟩
    rw [(limits.hasRoom_iff _).mpr (fits.here.embeds slot entry held)] at narrow
    cases narrow
  · exact below error failed

theorem Node.describeAt_stops {levels : Nat} {limits : Limits} {node : Node}
    (embeds : ∀ slot entry, node.shape.slotEntry slot = some entry →
      FailsAs (node.Stops levels limits) (embedEntry limits node.kind levels entry)) :
    FailsAs (node.Stops levels limits) (describeEntry limits (levels + 1) (some node)) := by
  rw [describeEntry_some]
  apply FailsAs.describeAt
  · apply FailsAs.describe _ embeds
    · intro index entry held
      exact slotToken_stops held
    · intro value literal
      exact decimal_stops fun fits => fits.integer value literal
  · exact decimal_stops FitsHere.line
  · exact decimal_stops FitsHere.column

theorem Node.describeEntry_stops (levels : Nat) (limits : Limits) (node : Node) :
    FailsAs (node.Stops levels limits) (describeEntry limits (levels + 1) (some node)) := by
  induction levels generalizing limits node with
  | zero => exact describeAt_stops fun slot entry held => embedEntry_stops held (.pure _)
  | succ levels ih =>
      apply describeAt_stops
      intro slot entry held
      apply embedEntry_stops held
      cases entry with
      | none => exact .pure _
      | some child => exact fun error failed => (ih _ child error failed).of_below held

end Reach

namespace Node

/-- Some token that the description shows meets an empty slot. -/
def ShowsEmpty (node : Node) : Prop :=
  ∃ entry, node.ShowsToken descriptionDepth entry ∧ MeetsEmpty entry

/-- The limits allow for the description. -/
def Fits (limits : Limits) (node : Node) : Prop := node.FitsWithin descriptionDepth limits

theorem not_showsEmpty_of_described {limits : Limits} {node : Node} {text : String}
    (found : node.description limits = .ok text) : ¬node.ShowsEmpty := by
  intro empty
  obtain ⟨entry, shows, meets⟩ := empty
  exact not_meetsEmpty_of_described found shows meets

theorem showsEmpty_of_failed {limits : Limits} {node : Node}
    (failed : node.description limits = .error .emptySlot) : node.ShowsEmpty := by
  rcases node.describeEntry_stops descriptionDepth limits _ failed with ⟨-, shows⟩ | ⟨other, -⟩
  · exact shows
  · exact absurd rfl other

theorem Fits.failed {limits : Limits} {node : Node} {error : TokenError} (fits : node.Fits limits)
    (failed : node.description limits = .error error) : error = .emptySlot := by
  rcases node.describeEntry_stops descriptionDepth limits _ failed with ⟨empty, -⟩ | ⟨-, narrow⟩
  · exact empty
  · exact absurd fits narrow

theorem Fits.exists_description_iff {limits : Limits} {node : Node} (fits : node.Fits limits) :
    (∃ text, node.description limits = .ok text) ↔ ¬node.ShowsEmpty := by
  constructor
  · intro described
    obtain ⟨text, found⟩ := described
    exact not_showsEmpty_of_described found
  · intro whole
    cases found : node.description limits with
    | ok text => exact ⟨text, rfl⟩
    | error error =>
        rw [fits.failed found] at found
        exact absurd (showsEmpty_of_failed found) whole

theorem Fits.description_eq_error_iff {limits : Limits} {node : Node} (fits : node.Fits limits) :
    node.description limits = .error .emptySlot ↔ node.ShowsEmpty := by
  constructor
  · exact showsEmpty_of_failed
  · intro empty
    cases found : node.description limits with
    | ok text => exact absurd empty (not_showsEmpty_of_described found)
    | error error => rw [fits.failed found]

/-- An array item that is nothing but its value. -/
def item (value : Option Node) : Node := ⟨.unknown, .arrayItem none value false false⟩

theorem description_item (value : Option Node) :
    (item value).description .endless =
      (fun token => "ArrayItem(" ++ token ++ ")" ++ " @ " ++ "0:0") <$> slotToken .endless value := by
  rw [description, describeEntry_some, item, Shape.describeAt, Shape.describe, ifPresent]
  rcases slotToken .endless value with error | token <;> simp <;> rfl

theorem description_item_of_error {limits : Limits} {value : Option Node} {error : TokenError}
    (failed : slotToken limits value = .error error) :
    (item value).description limits = .error error := by
  rw [description, describeEntry_some, item, Shape.describeAt, Shape.describe, ifPresent, failed]
  rfl

theorem token_wrapped (node : Node) (count : Nat) :
    (node.wrapped count).token .endless = node.token .endless := by
  induction count with
  | zero => rfl
  | succ count ih => exact ih

/-- An array item shows a name through any number of statements around it. -/
theorem description_item_wrapped (name : String) (count : Nat) :
    (item (some (wrapped ⟨.unknown, .identifier name⟩ count))).description .endless =
      .ok ("ArrayItem(" ++ name ++ ")" ++ " @ " ++ "0:0") := by
  rw [description_item, slotToken, token_wrapped]
  rfl

end Node

/-- There is only so much room, and one step is taken from each node to the next. -/
def Limits.stepwise (room : Nat) : Limits := ⟨some room, none, none, fun _ => 1, fun _ => 1⟩

theorem Node.token_stepwise_zero (node : Node) : node.token (.stepwise 0) = .error .tooDeep := by
  rcases node.token_cases with ⟨-, made⟩ | ⟨-, -, own⟩
  · rw [made]
    rfl
  · rw [own]
    rfl

theorem Node.token_wrapped_stepwise (node : Node) (room : Nat) :
    (node.wrapped room).token (.stepwise room) = .error .tooDeep := by
  induction room with
  | zero => exact node.token_stepwise_zero
  | succ room ih =>
      have enough : (Limits.stepwise (room + 1)).hasRoom 1 = true := by
        simp [Limits.hasRoom, Limits.within, Limits.stepwise]
      rw [wrapped, token]
      exact (if_pos enough).trans ih

end PhpLint
