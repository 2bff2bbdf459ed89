import Mathlib.Data.List.Perm.Basic
import PhpLint.Proofs.Resolution

/-! Unknown calls of rearranged forests: of two forests side by side, of roots in another order, and
of a forest in which a declaration without children is put in or moved. -/

namespace PhpLint

/-- One forest is another with a node put in somewhere: between the entries of a list, or into an
empty place. All else stays, whether beside the new node or around it. -/
inductive Gains (added : Node) : Forest → Forest → Prop
  | here (rest : Forest) : Gains added rest (some added :: rest)
  | filled (rest : Forest) : Gains added (none :: rest) (some added :: rest)
  | later (slot : Option Node) {rest grown : Forest} (gains : Gains added rest grown) :
      Gains added (slot :: rest) (slot :: grown)
  | inList {node changed : Node} (before after : List Field) {list grown : Forest} (rest : Forest)
      (kind : changed.kind = node.kind) (fields : node.fields = before ++ .list list :: after)
      (others : changed.fields = before ++ .list grown :: after) (gains : Gains added list grown) :
      Gains added (some node :: rest) (some changed :: rest)
  | inSlot {node changed : Node} (before after : List Field) {slot grown : Option Node}
      (rest : Forest) (kind : changed.kind = node.kind)
      (fields : node.fields = before ++ .slot slot :: after)
      (others : changed.fields = before ++ .slot grown :: after)
      (gains : Gains added [slot] [grown]) :
      Gains added (some node :: rest) (some changed :: rest)

/-- A value stands before its key among the fields; children come in the other order. -/
def keyFirst : List Field → List Field
  | value :: key :: rest => key :: value :: rest
  | fields => fields

theorem keyFirst_around (before after : List Field) :
    ∃ left right, ∀ field, keyFirst (before ++ field :: after) = left ++ field :: right := by
  match before, after with
  | [], [] => exact ⟨[], [], fun _ => rfl⟩
  | [], key :: rest => exact ⟨[key], rest, fun _ => rfl⟩
  | [value], rest => exact ⟨[], value :: rest, fun _ => rfl⟩
  | value :: key :: more, rest => exact ⟨key :: value :: more, rest, fun _ => rfl⟩

theorem Node.slots_eq_fields (node : Node) :
    node.slots = (if node.kind = .arrayItem ∨ node.kind = .keyValue then keyFirst node.fields
      else node.fields).flatMap Field.nodes := by
  obtain ⟨pos, shape⟩ := node
  cases shape with
  | arrayItem key value byRef unpack => rfl
  | keyValue key value => rfl
  | _ => simp [slots, kind, Shape.kind]

/-- Where one field differs, the slots differ in those of that field. -/
theorem Node.slots_around (kind : Kind) (before after : List Field) :
    ∃ left right : Forest, ∀ (node : Node) (field : Field), node.kind = kind →
      node.fields = before ++ field :: after → node.slots = left ++ field.nodes ++ right := by
  by_cases keyed : kind = .arrayItem ∨ kind = .keyValue
  · obtain ⟨left, right, placed⟩ := keyFirst_around before after
    refine ⟨left.flatMap Field.nodes, right.flatMap Field.nodes, ?_⟩
    rintro node field rfl fields
    simp [slots_eq_fields, keyed, fields, placed]
  · refine ⟨before.flatMap Field.nodes, after.flatMap Field.nodes, ?_⟩
    rintro node field rfl fields
    simp [slots_eq_fields, keyed, fields]

/-- The fields that hold no nodes. -/
def Field.isOwn : Field → Bool
  | .datum _ | .position _ => true
  | .slot _ | .list _ => false

theorem Node.kind_eq_functionCall {node : Node} (kind : node.kind = .functionCall) :
    ∃ pos name args, node = ⟨pos, .functionCall name args⟩ := by
  obtain ⟨pos, shape⟩ := node
  cases shape <;> simp [Node.kind, Shape.kind] at kind ⊢

theorem Node.kind_eq_functionDecl {node : Node} (kind : node.kind = .functionDecl) :
    ∃ pos name params body, node = ⟨pos, .functionDecl name params body⟩ := by
  obtain ⟨pos, shape⟩ := node
  cases shape <;> simp [Node.kind, Shape.kind] at kind ⊢

namespace Calls

theorem callOf_eq_none {node : Node} (kind : node.kind ≠ .functionCall) : callOf node = none := by
  obtain ⟨pos, shape⟩ := node
  cases shape <;> simp [Node.kind, Shape.kind, callOf] at kind ⊢

theorem declaredName_eq_none {node : Node} (kind : node.kind ≠ .functionDecl) :
    declaredName node = none := by
  obtain ⟨pos, shape⟩ := node
  cases shape <;> simp [Node.kind, Shape.kind, declaredName] at kind ⊢

section Congruence

variable {node changed : Node} (kind : changed.kind = node.kind)
  (own : changed.fields.filter Field.isOwn = node.fields.filter Field.isOwn)

include kind own

theorem callOf_congr : callOf changed = callOf node := by
  by_cases call : node.kind = .functionCall
  · obtain ⟨pos, name, args, rfl⟩ := Node.kind_eq_functionCall call
    obtain ⟨pos', name', args', rfl⟩ := Node.kind_eq_functionCall (kind.trans call)
    obtain ⟨rfl, rfl⟩ : name' = name ∧ pos' = pos := by
      simpa [Node.fields, Node.ownFields, Field.text, Field.isOwn, List.filter_cons] using own
    rfl
  · rw [callOf_eq_none call, callOf_eq_none (kind ▸ call)]

theorem declaredName_congr : declaredName changed = declaredName node := by
  by_cases decl : node.kind = .functionDecl
  · obtain ⟨pos, name, params, body, rfl⟩ := Node.kind_eq_functionDecl decl
    obtain ⟨pos', name', params', body', rfl⟩ := Node.kind_eq_functionDecl (kind.trans decl)
    obtain ⟨rfl, rfl⟩ : name' = name ∧ pos' = pos := by
      simpa [Node.fields, Node.ownFields, Field.text, Field.isOwn, List.filter_cons] using own
    rfl
  · rw [declaredName_eq_none decl, declaredName_eq_none (kind ▸ decl)]

end Congruence

section Listing

variable {α : Type} (pick : Node → Option α)

/-- What is picked from the nodes of a forest, in the order of the walk. -/
def picked (forest : Forest) : List α := (walk forest none).filterMap pick

@[simp]
theorem picked_nil : picked pick [] = [] := by simp [picked, walk]

@[simp]
theorem picked_append (left right : Forest) :
    picked pick (left ++ right) = picked pick left ++ picked pick right := by
  rw [picked, walk, walkStack_append, List.filterMap_append, picked, picked, walk, walk]

theorem picked_eq_flatMap (forest : Forest) :
    picked pick forest = forest.flatMap fun slot => picked pick [slot] := by
  induction forest with
  | nil => simp
  | cons slot rest ih => rw [List.flatMap_cons, ← ih, ← picked_append, List.singleton_append]

theorem picked_none : picked pick [none] = [] := by simp [picked, walk]

theorem picked_some (node : Node) :
    picked pick [some node] = (pick node).toList ++ picked pick node.slots := by
  rw [picked, picked, walk, walk, walkStack_slots]
  cases found : pick node <;> simp [found]

end Listing

/-- One forest declares one name more than another and has the same calls. -/
structure AddsName (name : String) (forest grown : Forest) : Prop where
  calls : picked callOf grown = picked callOf forest
  names : (picked declaredName grown).Perm (name :: picked declaredName forest)

namespace AddsName

variable {name : String} {forest grown : Forest}

theorem around (adds : AddsName name forest grown) (left right : Forest) :
    AddsName name (left ++ forest ++ right) (left ++ grown ++ right) where
  calls := by simp only [picked_append, adds.calls]
  names := by
    simp only [picked_append]
    have moved := (adds.names.append_left (picked declaredName left)).append_right
      (picked declaredName right)
    refine moved.trans ?_
    simp

theorem inside {node changed : Node} {before after : List Field} {field other : Field}
    (kind : changed.kind = node.kind) (fields : node.fields = before ++ field :: after)
    (others : changed.fields = before ++ other :: after)
    (nodes : field.isOwn = false ∧ other.isOwn = false)
    (adds : AddsName name field.nodes other.nodes) :
    AddsName name [some node] [some changed] := by
  have own : changed.fields.filter Field.isOwn = node.fields.filter Field.isOwn := by
    simp [fields, others, nodes]
  obtain ⟨left, right, slots⟩ := Node.slots_around node.kind before after
  have below := adds.around left right
  rw [← slots node field rfl fields, ← slots changed other kind others] at below
  constructor
  · rw [picked_some, picked_some, callOf_congr kind own, below.calls]
  · rw [picked_some, picked_some, declaredName_congr kind own]
    exact (below.names.append_left _).trans List.perm_middle

end AddsName

theorem addsName_itself (pos : Position) (name : String) :
    AddsName name [] [some ⟨pos, .functionDecl name [] []⟩] := by
  have childless : Node.slots ⟨pos, .functionDecl name [] []⟩ = [] := by
    simp [Node.slots, Node.fields, Node.ownFields, Field.nodes, Field.text]
  constructor
  · rw [picked_some, childless]
    rfl
  · rw [picked_some, childless]
    simp [declaredName]

theorem addsName_of_gains {pos : Position} {name : String} {forest grown : Forest}
    (gains : Gains ⟨pos, .functionDecl name [] []⟩ forest grown) : AddsName name forest grown := by
  have itself := addsName_itself pos name
  induction gains with
  | here rest => exact itself.around [] rest
  | filled rest =>
      have gap : AddsName name [none] [some ⟨pos, .functionDecl name [] []⟩] :=
        ⟨by rw [itself.calls, picked_nil, picked_none], by simpa [picked_none] using itself.names⟩
      exact gap.around [] rest
  | later slot _ ih => simpa using ih.around [slot] []
  | inList before after rest kind fields others _ ih =>
      exact (AddsName.inside kind fields others ⟨rfl, rfl⟩ ih).around [] rest
  | inSlot before after rest kind fields others _ ih =>
      exact (AddsName.inside kind fields others ⟨rfl, rfl⟩ ih).around [] rest

theorem declaredIn_iff (forest : Forest) (config : Config) (name : String) :
    DeclaredIn forest config name ↔
      ∃ declared ∈ picked declaredName forest, normal config declared = normal config name := by
  rw [← declared_contains_iff, declared_eq_insertAll, NameSet.contains_insertAll,
    or_iff_left (NameSet.contains_empty config.caseSensitiveCalls name)]
  rfl

theorem declaredIn_append (left right : Forest) (config : Config) (name : String) :
    DeclaredIn (left ++ right) config name ↔
      DeclaredIn left config name ∨ DeclaredIn right config name := by
  simp only [declaredIn_iff, picked_append, List.mem_append, or_and_right, exists_or]

/-- The calls of functions that are not built in. -/
def foundCalls (config : Config) (forest : Forest) : List UnknownCall :=
  (picked callOf forest).filter fun call => ¬BuiltIn config call.name

theorem analyze_calls (forest : Forest) (config : Config) :
    (analyze forest config).calls =
      (foundCalls config forest).filter fun call => ¬DeclaredIn forest config call.name := by
  have calls : (analyze forest config).calls =
      unknown forest (declared forest config.caseSensitiveCalls)
        (some (configuredBuiltins config)) := rfl
  rw [calls, unknown_eq_filter, foundCalls, List.filter_filter, picked]
  congr 1
  funext call
  simp [missed, ← declared_contains_iff, ← configuredBuiltins_contains_iff]

theorem analyze_append (left right : Forest) (config : Config) :
    (analyze (left ++ right) config).calls =
      ((analyze left config).calls.filter fun call => ¬DeclaredIn right config call.name) ++
        (analyze right config).calls.filter fun call => ¬DeclaredIn left config call.name := by
  have both : foundCalls config (left ++ right) = foundCalls config left ++ foundCalls config right := by
    rw [foundCalls, picked_append, List.filter_append, foundCalls, foundCalls]
  simp only [analyze_calls]
  rw [both, List.filter_append, List.filter_filter, List.filter_filter]
  congr 1
  · apply List.filter_congr
    intro call _
    simp [declaredIn_append, Bool.and_comm]
  · apply List.filter_congr
    intro call _
    simp [declaredIn_append]

theorem declaredIn_of_root {forest : Forest} {root : Option Node} (member : root ∈ forest)
    {config : Config} {name : String} (declares : DeclaredIn [root] config name) :
    DeclaredIn forest config name := by
  obtain ⟨before, after, rfl⟩ := List.append_of_mem member
  rw [← List.singleton_append, declaredIn_append, declaredIn_append]
  exact .inr (.inl declares)

theorem declaredIn_perm {forest other : Forest} (same : other.Perm forest) (config : Config)
    (name : String) : DeclaredIn other config name ↔ DeclaredIn forest config name := by
  have names : (picked declaredName other).Perm (picked declaredName forest) := by
    rw [picked_eq_flatMap, picked_eq_flatMap declaredName forest]
    exact same.flatMap_right _
  simp only [declaredIn_iff, names.mem_iff]

/-- The unknown calls of a forest that stand below one of its roots. -/
def rootCalls (config : Config) (forest : Forest) (root : Option Node) : List UnknownCall :=
  (analyze [root] config).calls.filter fun call => ¬DeclaredIn forest config call.name

theorem analyze_eq_rootCalls (forest : Forest) (config : Config) :
    (analyze forest config).calls = forest.flatMap (rootCalls config forest) := by
  rw [analyze_calls, foundCalls, picked_eq_flatMap, List.filter_flatMap, List.filter_flatMap]
  apply List.flatMap_congr
  intro root member
  rw [rootCalls, analyze_calls, ← foundCalls, List.filter_filter]
  apply List.filter_congr
  intro call _
  by_cases below : DeclaredIn [root] config call.name
  · simp [below, declaredIn_of_root member below]
  · simp [below]

theorem analyze_gains {pos : Position} {name : String} {forest grown : Forest}
    (gains : Gains ⟨pos, .functionDecl name [] []⟩ forest grown) (config : Config) :
    (analyze grown config).calls = (analyze forest config).calls.filter fun call =>
      normal config name ≠ normal config call.name := by
  have adds := addsName_of_gains gains
  have declares : ∀ called, DeclaredIn grown config called ↔
      normal config name = normal config called ∨ DeclaredIn forest config called := by
    intro called
    simp [declaredIn_iff, adds.names.mem_iff]
  rw [analyze_calls, analyze_calls, foundCalls, adds.calls, ← foundCalls, List.filter_filter]
  apply List.filter_congr
  intro call _
  simp [declares]

/-- Unknown calls of forests that are put together, rearranged or given a declaration. Side by side,
each of two forests loses the calls whose names the other declares. Roots in another order give the
same calls root by root. Where a declaration without children stands makes no difference, and to put
one in takes away just the calls of its name. -/
theorem analyze_follows_rearrangement (config : Config) :
    (∀ left right : Forest, (analyze (left ++ right) config).calls =
      ((analyze left config).calls.filter fun call => ¬DeclaredIn right config call.name) ++
        (analyze right config).calls.filter fun call => ¬DeclaredIn left config call.name) ∧
    (∀ forest other : Forest, other.Perm forest →
      (analyze forest config).calls = forest.flatMap (rootCalls config forest) ∧
      (analyze other config).calls = other.flatMap (rootCalls config forest)) ∧
    ∀ (pos : Position) (name : String) (forest grown : Forest),
      Gains ⟨pos, .functionDecl name [] []⟩ forest grown →
      (∀ other, Gains ⟨pos, .functionDecl name [] []⟩ forest other →
        (analyze other config).calls = (analyze grown config).calls) ∧
      (analyze grown config).calls = ((analyze forest config).calls.filter fun call =>
        normal config name ≠ normal config call.name) ∧
      (analyze grown config).calls.Sublist (analyze forest config).calls := by
  refine ⟨fun left right => analyze_append left right config, ?_, ?_⟩
  · intro forest other same
    refine ⟨analyze_eq_rootCalls forest config, ?_⟩
    rw [analyze_eq_rootCalls]
    unfold rootCalls
    simp only [declaredIn_perm same]
  · intro pos name forest grown gains
    have fewer := analyze_gains gains config
    refine ⟨?_, fewer, ?_⟩
    · intro other gainsToo
      rw [analyze_gains gainsToo, fewer]
    · rw [fewer]
      exact List.filter_sublist

/-- A declaration is moved from before a conditional into the body of one of its branches, and the
roots are turned around. -/
theorem analyze_follows_moved_helper :
    let config : Config := { Config.default with caseSensitiveCalls := false }
    let helper : Node := ⟨⟨9, 1, 90⟩, .functionDecl "Helper" [] []⟩
    let conditional (body : Forest) : Option Node :=
      some ⟨⟨1, 1, 0⟩, .ifStmt none [some ⟨⟨2, 3, 9⟩, .functionCall "helper" []⟩]
        [⟨⟨3, 1, 19⟩, none, body⟩] none⟩
    let other : Option Node := some ⟨⟨5, 1, 40⟩, .functionCall "other" []⟩
    let without : Forest := [conditional [], other]
    let before : Forest := some helper :: without
    let within : Forest := [conditional [some helper], other]
    without.reverse.Perm without ∧ Gains helper without before ∧ Gains helper without within ∧
    (analyze without.reverse config).calls =
      without.reverse.flatMap (rootCalls config without) ∧
    (analyze within config).calls = (analyze before config).calls ∧
    (analyze before config).calls.Sublist (analyze without config).calls := by
  intro config helper conditional other without before within
  have turned : without.reverse.Perm without := List.reverse_perm without
  have gainsBefore : Gains helper without before := .here without
  have gainsWithin : Gains helper without within := by
    refine .inList [.slot none, .list _] _ [other] rfl rfl rfl ?_
    exact .inList [.slot none] _ [] rfl rfl rfl (.here [])
  have all := analyze_follows_rearrangement config
  obtain ⟨same, -, fewer⟩ := all.2.2 _ _ without before gainsBefore
  exact ⟨turned, gainsBefore, gainsWithin, (all.2.1 without without.reverse turned).2,
    same within gainsWithin, fewer⟩

end Calls

end PhpLint
