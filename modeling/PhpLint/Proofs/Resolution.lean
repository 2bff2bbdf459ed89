import PhpLint.Calls.Unknown
import PhpLint.Proofs.NameSets
import PhpLint.Proofs.Occurrences
import PhpLint.Proofs.Visits

/-! Resolution of calls. The two traversals of the analysis come to one filter over the walk: a call
is listed unless its name is declared somewhere in the forest or built in. -/

namespace PhpLint.Calls

/-- The name that a node declares as a function. -/
def declaredName (node : Node) : Option String :=
  match node.shape with
  | .functionDecl name _ _ => some name
  | _ => none

/-- The call that a node is. -/
def callOf (node : Node) : Option UnknownCall :=
  match node.shape with
  | .functionCall name _ => some ⟨name, node.pos.line, node.pos.column⟩
  | _ => none

theorem declarations_descends (node : Node) (set : NameSet) :
    (declarations.enter node set).1 = true := by
  obtain ⟨pos, shape⟩ := node
  cases shape <;> rfl

theorem declarations_adds (node : Node) (set : NameSet) :
    (declarations.enter node set).2 =
      match declaredName node with
      | some name => set.insert name
      | none => set := by
  obtain ⟨pos, shape⟩ := node
  cases shape <;> rfl

/-- The first traversal puts in the declared names in the order of the walk. -/
theorem declared_eq_insertAll (forest : Forest) (caseSensitive : Bool) :
    declared forest caseSensitive =
      (NameSet.empty caseSensitive).insertAll ((walk forest none).filterMap declaredName) := by
  rw [declared, declarations.traverse_eq_foldl (fun _ => true) declarations_descends fun _ _ => rfl,
    NameSet.insertAll, List.foldl_filterMap, walk, Option.getD_none]
  congr 1
  funext set node
  rw [declarations_adds]
  cases declaredName node <;> rfl

theorem lookups_descends (declared builtins : NameSet) (node : Node) (calls : Array UnknownCall) :
    ((lookups declared builtins).enter node calls).1 = true := by
  obtain ⟨pos, shape⟩ := node
  cases shape with
  | functionCall name args =>
      simp only [lookups]
      split <;> rfl
  | _ => rfl

/-- The names that neither set has. -/
def missed (declared builtins : NameSet) (call : UnknownCall) : Bool :=
  !(declared.contains call.name || builtins.contains call.name)

theorem lookups_adds (declared builtins : NameSet) (node : Node) (calls : Array UnknownCall) :
    ((lookups declared builtins).enter node calls).2.toList =
      calls.toList ++ (callOf node).toList.filter (missed declared builtins) := by
  obtain ⟨pos, shape⟩ := node
  cases shape with
  | functionCall name args =>
      simp only [lookups, callOf, Option.toList_some]
      split
      next known => simp [missed, known]
      next unknown => simp [missed, unknown]
  | _ => simp [lookups, callOf]

/-- The second traversal lists the calls missed by both sets in the order of the walk. -/
theorem unknown_eq_filter (forest : Forest) (declared builtins : NameSet) :
    unknown forest declared (some builtins) =
      ((walk forest none).filterMap callOf).filter (missed declared builtins) := by
  have listed : ∀ (nodes : List Node) (calls : Array UnknownCall),
      (nodes.foldl (fun calls node => ((lookups declared builtins).enter node calls).2)
        calls).toList = calls.toList ++ (nodes.filterMap callOf).filter (missed declared builtins) := by
    intro nodes
    induction nodes with
    | nil => simp
    | cons node rest ih =>
        intro calls
        rw [List.foldl_cons, ih, lookups_adds]
        cases found : callOf node with
        | none => simp [found]
        | some call =>
            by_cases kept : missed declared builtins call = true <;> simp [found, kept]
  rw [unknown, Option.getD_some, (lookups declared builtins).traverse_eq_foldl (fun _ => true)
    (lookups_descends declared builtins) fun _ _ => rfl]
  exact listed (walk forest none) #[]

/-- Names are compared as they stand, or in lower case. -/
def normal (config : Config) (name : String) : String :=
  if config.caseSensitiveCalls then name else Text.lower name

/-- A name is declared by a function declaration anywhere in the forest. -/
def DeclaredIn (forest : Forest) (config : Config) (name : String) : Prop :=
  ∃ path pos declared params body,
    nodeAt forest path = some ⟨pos, .functionDecl declared params body⟩ ∧
      normal config declared = normal config name

/-- A name is one of the default builtins or of the configured ones. -/
def BuiltIn (config : Config) (name : String) : Prop :=
  ∃ builtin ∈ ["echo", "print", "strlen", "count"] ++ config.builtinFunctions,
    normal config builtin = normal config name

theorem declaredName_eq_some_iff (node : Node) (name : String) :
    declaredName node = some name ↔
      ∃ pos params body, node = ⟨pos, .functionDecl name params body⟩ := by
  obtain ⟨pos, shape⟩ := node
  cases shape <;> simp [declaredName]

theorem declared_contains_iff (forest : Forest) (config : Config) (name : String) :
    (declared forest config.caseSensitiveCalls).contains name = true ↔
      DeclaredIn forest config name := by
  rw [declared_eq_insertAll, NameSet.contains_insertAll,
    or_iff_left (NameSet.contains_empty config.caseSensitiveCalls name)]
  simp only [List.mem_filterMap, mem_walk, declaredName_eq_some_iff]
  constructor
  · rintro ⟨declared, ⟨node, ⟨path, found⟩, pos, params, body, rfl⟩, same⟩
    exact ⟨path, pos, declared, params, body, found, same⟩
  · rintro ⟨path, pos, declared, params, body, found, same⟩
    exact ⟨declared, ⟨_, ⟨path, found⟩, pos, params, body, rfl⟩, same⟩

theorem configuredBuiltins_contains_iff (config : Config) (name : String) :
    (configuredBuiltins config).contains name = true ↔ BuiltIn config name := by
  rw [configuredBuiltins, NameSet.contains_insertAll, NameSet.builtins, NameSet.contains_insertAll,
    or_iff_left (NameSet.contains_empty config.caseSensitiveCalls name)]
  simp only [BuiltIn, List.mem_append, or_and_right, exists_or]
  exact or_comm

instance (forest : Forest) (config : Config) (name : String) :
    Decidable (DeclaredIn forest config name) :=
  decidable_of_iff _ (declared_contains_iff forest config name)

instance (config : Config) (name : String) : Decidable (BuiltIn config name) :=
  decidable_of_iff _ (configuredBuiltins_contains_iff config name)

/-- The analysis lists, in the order of the walk, the calls whose name is neither declared anywhere
in the forest nor built in, and writes a line about each. -/
theorem analyze_lists_unresolved (forest : Forest) (config : Config) :
    (analyze forest config).calls =
      ((walk forest none).filterMap callOf).filter (fun call =>
        ¬DeclaredIn forest config call.name ∧ ¬BuiltIn config call.name) ∧
    String.join (analyze forest config).lines =
      String.join ((analyze forest config).calls.map fun call =>
        "Unknown function: " ++ call.name ++ " at line " ++ toString call.line ++ "\n") := by
  have calls : (analyze forest config).calls =
      unknown forest (declared forest config.caseSensitiveCalls)
        (some (configuredBuiltins config)) := rfl
  constructor
  · rw [calls, unknown_eq_filter]
    congr 1
    funext call
    simp [missed, ← declared_contains_iff, ← configuredBuiltins_contains_iff]
  · rfl

end PhpLint.Calls
