import PhpLint.Proofs.LineBreaks
import PhpLint.Proofs.TokenSources

/-! The texts that descriptions show. Descriptions and tokens have in them texts of the nodes they are
made up from, as these stand, and no other line breaks than theirs. -/

namespace PhpLint

section Shapes

variable {α : Type}

/-- The texts of a shape that its description shows. -/
def Shape.ownTexts : Shape α → List String
  | .identifier name | .variableRef name | .functionCall name _ | .functionDecl name _ _ => [name]
  | .stringLiteral value | .comment value => [value]
  | .binaryExpr _ operator _ => [operator]
  | .methodCall _ method _ => [method]
  | .creation className _ => [className]
  | .parameter name typeHint _ => [typeHint, name]
  | .functionDef name visibility modifiers returnType _ _ =>
    modifiers ++ [visibility, name, returnType]
  | .property name visibility => [visibility, name]
  | .classDecl name parent interfaces _ _ => name :: parent :: interfaces
  | .foreign _ text _ => [text]
  | _ => []

/-- The texts of a shape that its token shows. -/
def Shape.tokenTexts : Shape α → List String
  | .identifier name | .variableRef name | .functionCall name _ | .parameter name _ _
  | .property name _ => [name]
  | .stringLiteral value | .comment value => [value]
  | .binaryExpr _ operator _ => [operator]
  | .methodCall _ method _ => [method]
  | _ => []

/-- The entries that a description embeds. -/
def Shape.embedded : Shape α → List (Option α)
  | .assignment left right | .binaryExpr left _ right => [left, right]
  | .array elements _ => elements
  | .keyValue key value => [key, value]
  | .arrayAccess base index => [base, index]
  | .parameter _ _ default => [default]
  | .returnStmt expr | .expressionStmt expr => [expr]
  | .ifStmt condition _ _ _ | .elseIf condition _ | .whileStmt condition _ => [condition]
  | _ => []

/-- The entries that a description shows by their tokens. -/
def Shape.tokened : Shape α → List (Option α)
  | .arrayItem key value _ _ => [key, value]
  | _ => []

theorem bind_eq_ok_iff {ε β γ : Type} (x : Except ε β) (next : β → Except ε γ) (result : γ) :
    x >>= next = .ok result ↔ ∃ v, x = .ok v ∧ next v = .ok result := by
  cases x with
  | error error => simp [bind, Except.bind]
  | ok v => simp [bind, Except.bind]

theorem pure_eq_ok_iff {ε β : Type} (v result : β) :
    (pure v : Except ε β) = .ok result ↔ v = result := by
  simp [pure, Except.pure]

/-- Texts that are found for an entry have as many line breaks as the entry is said to have. -/
structure Counts (find : Option α → Except TokenError String) (count : Option α → Nat) : Prop where
  missing : count none = 0
  present : ∀ {entry text}, find entry = .ok text → breaks text = count entry

theorem Counts.mapM {find : Option α → Except TokenError String} {count : Option α → Nat}
    (counts : Counts find count) {entries : List (Option α)} {texts : List String}
    (found : entries.mapM find = .ok texts) : breaksIn texts = (entries.map count).sum := by
  induction entries generalizing texts with
  | nil =>
      rw [List.mapM_nil, pure_eq_ok_iff] at found
      rw [← found]
      rfl
  | cons entry rest ih =>
      simp only [List.mapM_cons, bind_eq_ok_iff, pure_eq_ok_iff] at found
      obtain ⟨text, first, others, later, same⟩ := found
      rw [← same, breaksIn_cons, counts.present first, ih later, List.map_cons, List.sum_cons]

/-- Something may be written around a text. -/
theorem Counts.around {find : Option α → Except TokenError String} {count : Option α → Nat}
    (counts : Counts find count) {around : String → String}
    (plain : ∀ text, breaks (around text) = breaks text) :
    Counts (fun entry => return around (← find entry)) count := by
  refine ⟨counts.missing, ?_⟩
  intro entry text found
  simp only [bind_eq_ok_iff, pure_eq_ok_iff] at found
  obtain ⟨inner, first, same⟩ := found
  rw [← same, plain, counts.present first]

theorem Counts.ifPresent {find : Option α → Except TokenError String} {count : Option α → Nat}
    (counts : Counts find count) {slot : Option α} {text : String}
    (found : PhpLint.ifPresent find slot = .ok text) : breaks text = count slot := by
  cases slot with
  | none =>
      rw [PhpLint.ifPresent, pure_eq_ok_iff] at found
      rw [← found, counts.missing]
      rfl
  | some child => exact counts.present found

theorem breaksIn_prefixed {before : String} (plain : breaks before = 0) (texts : List String) :
    breaksIn (texts.map (before ++ ·)) = breaksIn texts := by
  induction texts with
  | nil => rfl
  | cons text rest ih =>
      rw [List.map_cons, breaksIn_cons, breaks_append, plain, ih, Nat.zero_add, breaksIn_cons]

theorem breaksIn_unlessEmpty (text : String) : breaksIn (unlessEmpty text) = breaks text := by
  unfold unlessEmpty
  split
  next empty => rw [empty]; rfl
  next => rw [breaksIn_cons, breaksIn_nil, Nat.add_zero]

/-- A list of texts that is written as one, or not at all where it is empty. -/
theorem breaksIn_unlessNone (texts : List String) {joined : String}
    (same : breaks joined = breaksIn texts) :
    breaksIn (if texts = [] then [] else [joined]) = breaksIn texts := by
  split
  next none => rw [none]
  next => rw [breaksIn_cons, breaksIn_nil, same, Nat.add_zero]

theorem breaks_spaced (texts : List String) : breaks (" ".intercalate texts) = breaksIn texts :=
  breaks_intercalate rfl texts

theorem breaks_listed (texts : List String) : breaks (", ".intercalate texts) = breaksIn texts :=
  breaks_intercalate rfl texts

/-- The line breaks of the texts that a description shows, of the entries it embeds and of the tokens it
has. -/
def Shape.breakCount (embedCount tokenCount : Option α → Nat) (shape : Shape α) : Nat :=
  breaksIn shape.ownTexts + (shape.embedded.map embedCount).sum + (shape.tokened.map tokenCount).sum

namespace Shape

variable {decimal : Int → Except TokenError String}
  {embed token : Option α → Except TokenError String} {embedCount tokenCount : Option α → Nat}

theorem breaks_operands (embeds : Counts embed embedCount) (left right : Option α) {text : String} :
    ((assignment left right).describe decimal embed token = .ok text →
        breaks text = (assignment left right).breakCount embedCount tokenCount) ∧
      ∀ operator, (binaryExpr left operator right).describe decimal embed token = .ok text →
        breaks text = (binaryExpr left operator right).breakCount embedCount tokenCount := by
  constructor
  · intro found
    simp only [describe, bind_eq_ok_iff, pure_eq_ok_iff] at found
    obtain ⟨first, foundLeft, second, foundRight, rfl⟩ := found
    simp only [breaks_append, embeds.present foundLeft, embeds.present foundRight]
    simp [breakCount, ownTexts, embedded, tokened, breaks, breaksIn]
  · intro operator found
    simp only [describe, bind_eq_ok_iff, pure_eq_ok_iff] at found
    obtain ⟨first, foundLeft, second, foundRight, rfl⟩ := found
    simp only [breaks_append, embeds.present foundLeft, embeds.present foundRight]
    simp [breakCount, ownTexts, embedded, tokened, breaks, breaksIn]
    omega

/-- A slot that is shown even if it stands empty, and nothing else. -/
theorem breaks_clause (embeds : Counts embed embedCount) (entry : Option α)
    (body : List (Option α)) (elseIfs : List (ElseIf α)) (otherwise : Option (Else α))
    {shape : Shape α}
    (clause : shape ∈ [.expressionStmt entry, .ifStmt entry body elseIfs otherwise, .elseIf entry body,
      .whileStmt entry body]) {text : String}
    (found : shape.describe decimal embed token = .ok text) :
    breaks text = shape.breakCount embedCount tokenCount := by
  simp only [List.mem_cons, List.not_mem_nil, or_false] at clause
  rcases clause with rfl | rfl | rfl | rfl
  all_goals
    simp only [describe, bind_eq_ok_iff, pure_eq_ok_iff] at found
    obtain ⟨inner, foundInner, rfl⟩ := found
    simp only [breaks_append, embeds.present foundInner]
    simp [breakCount, ownTexts, embedded, tokened, breaks, breaksIn]

/-- A slot that is shown if it is filled. -/
theorem breaks_optional (embeds : Counts embed embedCount) (entry : Option α) {text : String} :
    ((returnStmt entry).describe decimal embed token = .ok text →
        breaks text = (returnStmt entry).breakCount embedCount tokenCount) ∧
      ∀ name typeHint, (parameter name typeHint entry).describe decimal embed token = .ok text →
        breaks text = (parameter name typeHint entry).breakCount embedCount tokenCount := by
  constructor
  · intro found
    simp only [describe, bind_eq_ok_iff, pure_eq_ok_iff] at found
    obtain ⟨exprText, foundExpr, rfl⟩ := found
    simp only [breaks_append, embeds.ifPresent foundExpr]
    simp [breakCount, ownTexts, embedded, tokened, breaks, breaksIn]
  · intro name typeHint found
    simp only [describe, bind_eq_ok_iff, pure_eq_ok_iff] at found
    obtain ⟨defaultText, foundDefault, rfl⟩ := found
    have defaulted := (embeds.around fun text => by simp [breaks]).ifPresent foundDefault
    simp only [breaks_append, breaks_spaced, breaksIn_append, breaksIn_unlessEmpty, defaulted]
    simp [breakCount, ownTexts, embedded, tokened, breaks, breaksIn]

/-- A slot that is shown if it is filled, and one that is shown anyway. -/
theorem breaks_pair (embeds : Counts embed embedCount) (first second : Option α) {text : String} :
    ((keyValue first second).describe decimal embed token = .ok text →
        breaks text = (keyValue first second).breakCount embedCount tokenCount) ∧
      ((arrayAccess second first).describe decimal embed token = .ok text →
        breaks text = (arrayAccess second first).breakCount embedCount tokenCount) := by
  constructor
  · intro found
    simp only [describe, bind_eq_ok_iff, pure_eq_ok_iff] at found
    obtain ⟨keyText, foundKey, valueText, foundValue, rfl⟩ := found
    have keyed := (embeds.around fun text => by simp [breaks]).ifPresent foundKey
    simp only [breaks_append, keyed, embeds.present foundValue]
    simp [breakCount, ownTexts, embedded, tokened, breaksIn]
  · intro found
    simp only [describe, bind_eq_ok_iff, pure_eq_ok_iff] at found
    obtain ⟨indexText, foundIndex, baseText, foundBase, rfl⟩ := found
    simp only [breaks_append, embeds.ifPresent foundIndex, embeds.present foundBase]
    simp [breakCount, ownTexts, embedded, tokened, breaks, breaksIn]

theorem breaks_array (embeds : Counts embed embedCount) (elements : List (Option α)) (long : Bool)
    {text : String} (found : (array elements long).describe decimal embed token = .ok text) :
    breaks text = (array elements long).breakCount embedCount tokenCount := by
  simp only [describe, bind_eq_ok_iff, pure_eq_ok_iff] at found
  obtain ⟨texts, foundAll, rfl⟩ := found
  simp only [breaks_append, breaks_listed, embeds.mapM foundAll]
  simp [breakCount, ownTexts, embedded, tokened, breaks, breaksIn]

theorem breaks_item (tokens : Counts token tokenCount) (key value : Option α) (byRef unpack : Bool)
    {text : String}
    (found : (arrayItem key value byRef unpack).describe decimal embed token = .ok text) :
    breaks text = (arrayItem key value byRef unpack).breakCount embedCount tokenCount := by
  simp only [describe, bind_eq_ok_iff, pure_eq_ok_iff] at found
  obtain ⟨keyText, foundKey, valueText, foundValue, rfl⟩ := found
  have keyed := (tokens.around fun text => by simp [breaks]).ifPresent foundKey
  have marks : breaks (if byRef then "&" else "") = 0 ∧
      breaks (if unpack then "..." else "") = 0 := by
    cases byRef <;> cases unpack <;> exact ⟨rfl, rfl⟩
  simp only [breaks_append, marks, keyed, tokens.present foundValue]
  simp [breakCount, ownTexts, embedded, tokened, breaks, breaksIn]

theorem breaks_functionDef (name visibility : String) (modifiers : List String) (returnType : String)
    (params body : List (Option α)) {text : String}
    (found : (functionDef name visibility modifiers returnType params body).describe decimal embed
      token = .ok text) :
    breaks text = (functionDef name visibility modifiers returnType params body).breakCount
      embedCount tokenCount := by
  have modified := breaksIn_unlessNone modifiers (breaks_spaced modifiers)
  have returned := breaksIn_prefixed (show breaks ": " = 0 from rfl) (unlessEmpty returnType)
  rw [← Except.ok.inj found]
  simp only [breaks_spaced, breaksIn_append, modified, returned, breaksIn_unlessEmpty]
  simp [breakCount, ownTexts, embedded, tokened, breaks, breaksIn]
  omega

theorem breaks_classDecl (name parent : String) (interfaces : List String)
    (properties methods : List (Option α)) {text : String}
    (found : (classDecl name parent interfaces properties methods).describe decimal embed token =
      .ok text) :
    breaks text = (classDecl name parent interfaces properties methods).breakCount embedCount
      tokenCount := by
  have listed : breaks ("implements " ++ ", ".intercalate interfaces) = breaksIn interfaces := by
    rw [breaks_append, breaks_listed]
    exact Nat.zero_add _
  have implemented := breaksIn_unlessNone interfaces listed
  have extended := breaksIn_prefixed (show breaks "extends " = 0 from rfl) (unlessEmpty parent)
  rw [← Except.ok.inj found]
  simp only [breaks_spaced, breaksIn_append, implemented, extended, breaksIn_unlessEmpty]
  simp [breakCount, ownTexts, embedded, tokened, breaks, breaksIn]
  omega

/-- The line breaks of a description are those of the texts it shows, of the entries it embeds and of
the tokens it has. -/
theorem breaks_describe {shape : Shape α}
    (decimals : ∀ {value text}, decimal value = .ok text → breaks text = 0)
    (embeds : Counts embed embedCount) (tokens : Counts token tokenCount) {text : String}
    (found : shape.describe decimal embed token = .ok text) :
    breaks text = shape.breakCount embedCount tokenCount := by
  cases shape with
  | assignment left right => exact (breaks_operands embeds left right).1 found
  | binaryExpr left operator right => exact (breaks_operands embeds left right).2 operator found
  | array elements long => exact breaks_array embeds elements long found
  | arrayItem key value byRef unpack => exact breaks_item tokens key value byRef unpack found
  | keyValue key value => exact (breaks_pair embeds key value).1 found
  | arrayAccess base index => exact (breaks_pair embeds index base).2 found
  | parameter name typeHint default => exact (breaks_optional embeds default).2 name typeHint found
  | returnStmt expr => exact (breaks_optional embeds expr).1 found
  | expressionStmt expr => exact breaks_clause embeds expr [] [] none (by simp) found
  | ifStmt condition body elseIfs otherwise =>
      exact breaks_clause embeds condition body elseIfs otherwise (by simp) found
  | elseIf condition body => exact breaks_clause embeds condition body [] none (by simp) found
  | whileStmt condition body => exact breaks_clause embeds condition body [] none (by simp) found
  | functionDef name visibility modifiers returnType params body =>
      exact breaks_functionDef name visibility modifiers returnType params body found
  | classDecl name parent interfaces properties methods =>
      exact breaks_classDecl name parent interfaces properties methods found
  | integerLiteral value =>
      simp only [describe, bind_eq_ok_iff, pure_eq_ok_iff] at found
      obtain ⟨written, foundWritten, rfl⟩ := found
      rw [breaks_append, breaks_append, decimals foundWritten]
      rfl
  | floatLiteral value =>
      rw [← Except.ok.inj found, breaks_append, breaks_append, breaks_general]
      rfl
  | booleanLiteral value =>
      rw [← Except.ok.inj found]
      cases value <;> rfl
  | property name visibility =>
      rw [← Except.ok.inj found, breaks_spaced, breaksIn_append, breaksIn_unlessEmpty]
      simp [breakCount, ownTexts, embedded, tokened, breaks, breaksIn]
  | _ =>
      rw [← Except.ok.inj found]
      simp [breakCount, ownTexts, embedded, tokened, breaks, breaksIn]

end Shape

end Shapes

section Tokens

/-- The texts that the tokens of some entries are made up from. -/
def textsOfTokens : Forest → List String
  | [] => []
  | none :: rest => textsOfTokens rest
  | some node :: rest =>
    node.shape.tokenTexts ++ textsOfTokens node.shape.tokenSources ++ textsOfTokens rest
termination_by entries => forestSize entries
decreasing_by
  · exact forestSize_tail_lt none rest
  · exact forestSize_lt_cons node node.forestSize_tokenSources_lt rest
  · exact forestSize_tail_lt (some node) rest

theorem textsOfTokens_append (left right : Forest) :
    textsOfTokens (left ++ right) = textsOfTokens left ++ textsOfTokens right := by
  induction left with
  | nil => rw [textsOfTokens, List.nil_append, List.nil_append]
  | cons slot rest ih =>
      cases slot with
      | none => rw [List.cons_append, textsOfTokens, textsOfTokens, ih]
      | some node => rw [List.cons_append, textsOfTokens, textsOfTokens, ih, ← List.append_assoc]

theorem breaksIn_textsOfTokens_nil : breaksIn (textsOfTokens []) = 0 := by
  rw [textsOfTokens, breaksIn_nil]

theorem breaks_decimal {limits : Limits} {value : Int} {text : String}
    (written : limits.decimal value = .ok text) : breaks text = 0 := by
  rw [← Limits.decimal_eq_ok written, breaks_int]

theorem Shape.breaks_ownToken {α : Type} {limits : Limits} {shape : Shape α} {text : String}
    (found : shape.ownToken limits = .ok text) : breaks text = breaksIn shape.tokenTexts := by
  cases shape with
  | integerLiteral value => exact breaks_decimal found
  | floatLiteral value =>
      rw [← Except.ok.inj found, breaks_general]
      rfl
  | booleanLiteral value =>
      rw [← Except.ok.inj found]
      cases value <;> rfl
  | array elements long =>
      rw [← Except.ok.inj found]
      cases long <;> rfl
  | arrayItem key value byRef unpack =>
      rw [← Except.ok.inj found]
      cases key <;> simp [tokenTexts, breaks, breaksIn]
  | _ =>
      rw [← Except.ok.inj found]
      simp [tokenTexts, breaks, breaksIn]

theorem Shape.tokenTexts_of_joins {node : Node} (joins : node.kind.joinsTokens = true) :
    node.shape.tokenTexts = [] := by
  obtain ⟨pos, shape⟩ := node
  cases shape <;> first | rfl | cases joins

/-- The line breaks of a token are those of the text it shows, or of the tokens it is made up from. -/
theorem Node.breaks_token {limits : Limits} {node : Node} {text : String}
    (found : node.token limits = .ok text)
    (sources : ∀ {limits joined}, tokens limits node.shape.tokenSources = .ok joined →
      breaks joined = breaksIn (textsOfTokens node.shape.tokenSources)) :
    breaks text =
      breaksIn node.shape.tokenTexts + breaksIn (textsOfTokens node.shape.tokenSources) := by
  rcases node.token_cases with ⟨joins, made⟩ | ⟨-, alone, own⟩
  · rw [made] at found
    rw [sources (Limits.spend_eq_ok found).2, Shape.tokenTexts_of_joins joins, breaksIn_nil,
      Nat.zero_add]
  · rw [own] at found
    rw [Shape.breaks_ownToken (Limits.spend_eq_ok found).2, alone, breaksIn_textsOfTokens_nil,
      Nat.add_zero]

theorem breaks_tokens {limits : Limits} {entries : Forest} {text : String}
    (found : tokens limits entries = .ok text) : breaks text = breaksIn (textsOfTokens entries) := by
  induction entries using forest_size_induction generalizing limits text with
  | nil =>
      cases found
      rw [textsOfTokens]
      rfl
  | missing rest _ => cases found
  | present node rest below after =>
      simp only [tokens, slotToken, bind_eq_ok_iff, pure_eq_ok_iff] at found
      obtain ⟨first, foundFirst, others, foundOthers, rfl⟩ := found
      have own := Node.breaks_token foundFirst fun made => below _ node.forestSize_tokenSources_lt made
      rw [breaks_append, own, after foundOthers, textsOfTokens, breaksIn_append, breaksIn_append]

theorem exists_sourceAt_iff (node : Node) (holds : Node → Prop) :
    (∃ path source, sourceAt path (some node) = some (some source) ∧ holds source) ↔
      holds node ∨ ∃ entry ∈ node.shape.tokenSources, ∃ path source,
        sourceAt path entry = some (some source) ∧ holds source := by
  constructor
  · intro ⟨path, source, reached, held⟩
    cases path with
    | nil =>
        cases reached
        exact .inl held
    | cons index path =>
        obtain ⟨entry, listed, below⟩ := Option.bind_eq_some_iff.mp reached
        exact .inr ⟨entry, List.mem_of_getElem? listed, path, source, below, held⟩
  · intro either
    rcases either with held | ⟨entry, member, path, source, below, held⟩
    · exact ⟨[], node, rfl, held⟩
    · obtain ⟨index, listed⟩ := List.mem_iff_getElem?.mp member
      refine ⟨index :: path, source, ?_, held⟩
      rw [sourceAt, listed]
      exact below

/-- The texts that tokens are made up from stand in the nodes they are read from. -/
theorem mem_textsOfTokens (entries : Forest) (text : String) :
    text ∈ textsOfTokens entries ↔
      ∃ entry ∈ entries, ∃ path source, sourceAt path entry = some (some source) ∧
        text ∈ source.shape.tokenTexts := by
  induction entries using forest_size_induction with
  | nil => simp [textsOfTokens]
  | missing rest ih =>
      have nothing : ∀ path source, sourceAt path none ≠ some (some source) := by
        intro path source
        cases path <;> simp [sourceAt]
      simp [textsOfTokens, ih, nothing]
  | present node rest below after =>
      rw [textsOfTokens, List.mem_append, List.mem_append, after,
        below _ node.forestSize_tokenSources_lt]
      simp only [List.mem_cons, exists_eq_or_imp, exists_sourceAt_iff]

end Tokens

section Descriptions

/-- The texts that a node adds to a description. -/
def Node.textsHere (node : Node) : List String :=
  node.shape.ownTexts ++ textsOfTokens node.shape.tokened

/-- The texts that an entry adds to a description with so many levels left. -/
def textsWithin : Nat → Option Node → List String
  | 0, _ => []
  | _ + 1, none => []
  | budget + 1, some node => node.textsHere ++ node.shape.embedded.flatMap (textsWithin budget)

/-- The texts that the description of a node shows. -/
def Node.shownTexts (node : Node) : List String :=
  textsWithin (Node.descriptionDepth + 1) (some node)

theorem breaksIn_textsOfTokens (entries : Forest) :
    breaksIn (textsOfTokens entries) =
      (entries.map fun entry => breaksIn (textsOfTokens [entry])).sum := by
  induction entries with
  | nil => exact breaksIn_textsOfTokens_nil
  | cons entry rest ih =>
      rw [← List.singleton_append, textsOfTokens_append, breaksIn_append, ih]
      rfl

theorem slotToken_counts (limits : Limits) :
    Counts (slotToken limits) fun entry => breaksIn (textsOfTokens [entry]) := by
  refine ⟨?_, ?_⟩
  · show breaksIn (textsOfTokens [none]) = 0
    rw [textsOfTokens, breaksIn_textsOfTokens_nil]
  · intro entry text found
    rw [← tokens_singleton] at found
    exact breaks_tokens found

theorem breaks_position {limits : Limits} {pos : Position} {text : String}
    (written : pos.text limits.decimal = .ok text) : breaks text = 0 := by
  simp only [Position.text, bind_eq_ok_iff, pure_eq_ok_iff] at written
  obtain ⟨line, foundLine, column, foundColumn, rfl⟩ := written
  rw [breaks_append, breaks_append, breaks_decimal foundLine, breaks_decimal foundColumn]
  rfl

theorem Shape.breaks_describeAt {shape : Shape Node} {pos : Position} {limits : Limits}
    {embed : Option Node → Except TokenError String} {embedCount : Option Node → Nat}
    (embeds : Counts embed embedCount) {text : String}
    (found : shape.describeAt pos limits.decimal embed (slotToken limits) = .ok text) :
    breaks text = shape.breakCount embedCount fun entry => breaksIn (textsOfTokens [entry]) := by
  rw [describeAt, bind_eq_ok_iff] at found
  obtain ⟨own, described, placed⟩ := found
  have counted := breaks_describe breaks_decimal embeds (slotToken_counts limits) described
  split at placed
  · simp only [bind_eq_ok_iff, pure_eq_ok_iff] at placed
    obtain ⟨position, written, rfl⟩ := placed
    rw [breaks_append, breaks_append, breaks_position written, counted]
    rfl
  · rw [pure_eq_ok_iff] at placed
    rw [← placed, counted]

theorem describeEntry_counts (levels : Nat) (limits : Limits) :
    Counts (describeEntry limits levels) fun entry => breaksIn (textsWithin levels entry) := by
  induction levels generalizing limits with
  | zero =>
      refine ⟨rfl, ?_⟩
      intro entry text found
      rw [← Except.ok.inj found]
      rfl
  | succ levels ih =>
      refine ⟨rfl, ?_⟩
      intro entry text found
      cases entry with
      | none =>
          rw [← Except.ok.inj found]
          rfl
      | some node =>
          have embeds : Counts (embedEntry limits node.kind levels) fun entry =>
              breaksIn (textsWithin levels entry) :=
            ⟨(ih limits).missing, fun embedded => (ih _).present (Limits.spend_eq_ok embedded).2⟩
          rw [describeEntry_some] at found
          show breaks text = breaksIn (textsWithin (levels + 1) (some node))
          rw [Shape.breaks_describeAt embeds found, Shape.breakCount, textsWithin, Node.textsHere,
            breaksIn_append, breaksIn_append, breaksIn_flatMap, breaksIn_textsOfTokens]
          omega

theorem Node.breaks_description {limits : Limits} {node : Node} {text : String}
    (found : node.description limits = .ok text) : breaks text = breaksIn node.shownTexts :=
  (describeEntry_counts (descriptionDepth + 1) limits).present found

theorem Slot.exists_iff {motive : Slot → Prop} :
    (∃ slot, motive slot) ↔ motive .left ∨ motive .right ∨ (∃ index, motive (.element index)) ∨
      motive .key ∨ motive .value ∨ motive .base ∨ motive .index ∨ motive .default ∨ motive .expr ∨
      motive .condition := by
  rw [← Classical.not_forall_not, Slot.forall_iff]
  grind

theorem Shape.mem_embedded {α : Type} (shape : Shape α) (child : α) :
    some child ∈ shape.embedded ↔ ∃ slot, shape.slotEntry slot = some (some child) := by
  rw [Slot.exists_iff]
  cases shape with
  | array elements long => simp [embedded, slotEntry, List.mem_iff_getElem?]
  | _ => simp [embedded, slotEntry, eq_comm]

theorem mem_flatMap_textsWithin (budget : Nat) (node : Node) (text : String) :
    text ∈ node.shape.embedded.flatMap (textsWithin budget) ↔
      ∃ slot child, node.shape.slotEntry slot = some (some child) ∧
        text ∈ textsWithin budget (some child) := by
  rw [List.mem_flatMap]
  constructor
  · intro ⟨entry, member, inside⟩
    cases entry with
    | none => cases budget <;> cases inside
    | some child =>
        obtain ⟨slot, held⟩ := (node.shape.mem_embedded child).mp member
        exact ⟨slot, child, held, inside⟩
  · intro ⟨slot, child, held, inside⟩
    exact ⟨some child, (node.shape.mem_embedded child).mpr ⟨slot, held⟩, inside⟩

/-- The texts of a description stand in the nodes it embeds. -/
theorem mem_textsWithin (budget : Nat) (node : Node) (text : String) :
    text ∈ textsWithin (budget + 1) (some node) ↔
      ∃ item, node.Embeds budget item ∧ text ∈ item.textsHere := by
  induction budget generalizing node with
  | zero => simp [textsWithin, Node.embeds_zero]
  | succ budget ih =>
      rw [textsWithin, List.mem_append, mem_flatMap_textsWithin]
      simp only [ih, Node.embeds_succ, or_and_right, exists_or, exists_eq_left]
      grind

/-- A description shows a text: one of a node it embeds, or one that a token it shows is made up
from. -/
def Node.Shows (node : Node) (text : String) : Prop :=
  ∃ item, node.Embeds descriptionDepth item ∧
    (text ∈ item.shape.ownTexts ∨
      ∃ entry ∈ item.shape.tokened, ∃ path source,
        sourceAt path entry = some (some source) ∧ text ∈ source.shape.tokenTexts)

theorem Node.mem_shownTexts (node : Node) (text : String) :
    text ∈ node.shownTexts ↔ node.Shows text := by
  rw [shownTexts, mem_textsWithin]
  simp only [textsHere, List.mem_append, mem_textsOfTokens, Shows]

end Descriptions

end PhpLint
