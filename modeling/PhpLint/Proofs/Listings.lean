import Mathlib.Data.List.Sort
import Mathlib.Data.String.Basic
import PhpLint.Proofs.CaseImages
import PhpLint.Proofs.Resolution

/-! Listings of sets of names. However a set came about, its names are the normal forms of the names
given to it, in the order of their code points. So neither the order nor the repetition of what is
put in makes a difference, and a set holds the names it lists. -/

namespace PhpLint.NameSet

/-- How a set starts: empty, with the functions a forest declares, with given builtins or the default
ones, or with those of a configuration. -/
inductive Origin where
  | empty (caseSensitive : Bool)
  | declared (forest : Forest) (caseSensitive : Bool)
  | builtins (names : Option (List String)) (caseSensitive : Bool)
  | configured (config : Config)

namespace Origin

def set : Origin → NameSet
  | .empty caseSensitive => NameSet.empty caseSensitive
  | .declared forest caseSensitive => Calls.declared forest caseSensitive
  | .builtins names caseSensitive => NameSet.builtins names caseSensitive
  | .configured config => Calls.configuredBuiltins config

def caseSensitive : Origin → Bool
  | .empty caseSensitive | .declared _ caseSensitive | .builtins _ caseSensitive => caseSensitive
  | .configured config => config.caseSensitiveCalls

/-- The names a set starts with, as they were given. -/
def names : Origin → List String
  | .empty _ => []
  | .declared forest _ => (walk forest none).filterMap Calls.declaredName
  | .builtins names _ => names.getD ["echo", "print", "strlen", "count"]
  | .configured config => ["echo", "print", "strlen", "count"] ++ config.builtinFunctions

end Origin

/-- Names are added one by one or several at once. -/
inductive Addition where
  | add (name : String)
  | register (names : List String)

namespace Addition

def apply (set : NameSet) : Addition → NameSet
  | .add name => set.insert name
  | .register names => set.insertAll names

def names : Addition → List String
  | .add name => [name]
  | .register names => names

end Addition

/-- The set after a history of additions. -/
def built (origin : Origin) (additions : List Addition) : NameSet :=
  additions.foldl Addition.apply origin.set

/-- All names that went into the set, as they were given. -/
def given (origin : Origin) (additions : List Addition) : List String :=
  origin.names ++ additions.flatMap Addition.names

theorem insertAll_append (set : NameSet) (names more : List String) :
    set.insertAll (names ++ more) = (set.insertAll names).insertAll more :=
  List.foldl_append

theorem Origin.set_eq_insertAll (origin : Origin) :
    origin.set = (NameSet.empty origin.caseSensitive).insertAll origin.names := by
  cases origin with
  | empty caseSensitive => rfl
  | declared forest caseSensitive => exact Calls.declared_eq_insertAll forest caseSensitive
  | builtins names caseSensitive => rfl
  | configured config =>
      rw [names, insertAll_append]
      rfl

/-- Every history comes to putting all its names into an empty set, one after another. -/
theorem built_eq_insertAll (origin : Origin) (additions : List Addition) :
    built origin additions =
      (NameSet.empty origin.caseSensitive).insertAll (given origin additions) := by
  rw [built, given, insertAll_append, ← origin.set_eq_insertAll]
  generalize origin.set = set
  induction additions generalizing set with
  | nil => rfl
  | cons addition rest ih =>
      rw [List.foldl_cons, ih, List.flatMap_cons, insertAll_append]
      cases addition <;> rfl

theorem normalize_normalize (caseSensitive : Bool) (name : String) :
    normalize caseSensitive (normalize caseSensitive name) = normalize caseSensitive name := by
  cases caseSensitive with
  | true => rfl
  | false => exact Text.lower_lower name

/-- A set lists the normal forms of some names, each once and in order. -/
structure Lists (set : NameSet) (names : List String) : Prop where
  ordered : set.names.Pairwise (· < ·)
  listed : ∀ name, name ∈ set.names ↔
    ∃ other ∈ names, normalize set.caseSensitive other = name

theorem insertSorted_ordered (name : String) {names : List String}
    (ordered : names.Pairwise (· < ·)) : (insertSorted name names).Pairwise (· < ·) := by
  induction names with
  | nil => simp [insertSorted]
  | cons first rest ih =>
      obtain ⟨least, later⟩ := List.pairwise_cons.mp ordered
      rw [insertSorted]
      split
      next before =>
        refine List.pairwise_cons.mpr ⟨?_, ordered⟩
        intro other member
        rcases List.mem_cons.mp member with rfl | among
        · exact before
        · exact before.trans (least other among)
      next notBefore =>
        split
        next => exact ordered
        next different =>
          have after : first < name := lt_of_le_of_ne (not_lt.mp notBefore) (Ne.symm different)
          refine List.pairwise_cons.mpr ⟨?_, ih later⟩
          intro other member
          rcases (mem_insertSorted name other rest).mp member with rfl | among
          · exact after
          · exact least other among

namespace Lists

variable {set other : NameSet} {names others : List String}

theorem empty (caseSensitive : Bool) : (NameSet.empty caseSensitive).Lists [] :=
  ⟨.nil, by simp [NameSet.empty]⟩

theorem insert (lists : set.Lists names) (name : String) :
    (set.insert name).Lists (names ++ [name]) where
  ordered := insertSorted_ordered _ lists.ordered
  listed other := by
    rw [NameSet.insert, mem_insertSorted, lists.listed]
    simp only [List.mem_append, List.mem_singleton, or_and_right, exists_or, exists_eq_left]
    rw [or_comm, @eq_comm _ other]

theorem insertAll (lists : set.Lists names) (more : List String) :
    (set.insertAll more).Lists (names ++ more) := by
  induction more generalizing set names with
  | nil => simpa [NameSet.insertAll] using lists
  | cons name rest ih =>
      have later := ih (lists.insert name)
      rwa [List.append_assoc] at later

theorem contains_iff (lists : set.Lists names) (name : String) :
    set.contains name = true ↔
      ∃ other ∈ names, normalize set.caseSensitive name = normalize set.caseSensitive other := by
  rw [contains, List.contains_iff_mem, lists.listed]
  simp only [eq_comm]

theorem normalize_listed (lists : set.Lists names) {name : String} (member : name ∈ set.names) :
    normalize set.caseSensitive name = name := by
  obtain ⟨other, -, rfl⟩ := (lists.listed name).mp member
  exact normalize_normalize set.caseSensitive other

theorem contains_listed (lists : set.Lists names) {name : String} (member : name ∈ set.names) :
    set.contains name = true := by
  rw [contains, List.contains_iff_mem, lists.normalize_listed member]
  exact member

theorem eq_of_members (lists : set.Lists names) (lists' : other.Lists others)
    (policy : other.caseSensitive = set.caseSensitive)
    (same : ∀ name, name ∈ other.names ↔ name ∈ set.names) : other = set := by
  have listing : other.names = set.names := lists'.ordered.eq_of_mem_iff lists.ordered same
  cases set
  cases other
  cases policy
  cases listing
  rfl

/-- A set is determined by its policy and the names given to it, in any order and number. -/
theorem unique (lists : set.Lists names) (lists' : other.Lists others)
    (policy : other.caseSensitive = set.caseSensitive)
    (same : ∀ name, name ∈ others ↔ name ∈ names) : other = set := by
  apply lists.eq_of_members lists' policy
  intro name
  rw [lists'.listed, lists.listed, policy]
  simp only [same]

theorem insertAll_listed (lists : set.Lists names) : set.insertAll set.names = set := by
  have again := lists.insertAll set.names
  have policy := insertAll_caseSensitive set set.names
  apply lists.eq_of_members again policy
  intro name
  rw [again.listed, policy]
  constructor
  · intro ⟨other, member, normal⟩
    rcases List.mem_append.mp member with given | listed
    · exact (lists.listed name).mpr ⟨other, given, normal⟩
    · rwa [← normal, lists.normalize_listed listed]
  · intro member
    exact ⟨name, List.mem_append_right names member, lists.normalize_listed member⟩

end Lists

theorem built_lists (origin : Origin) (additions : List Addition) :
    (built origin additions).Lists (given origin additions) := by
  rw [built_eq_insertAll]
  exact (Lists.empty origin.caseSensitive).insertAll (given origin additions)

theorem built_caseSensitive (origin : Origin) (additions : List Addition) :
    (built origin additions).caseSensitive = origin.caseSensitive := by
  rw [built_eq_insertAll, insertAll_caseSensitive]
  rfl

/-- The numbers of the characters of a name. -/
def codePoints (name : String) : List Nat := name.toList.map Char.toNat

theorem codePoints_lex {name other : String} (before : name < other) :
    List.Lex (· < ·) (codePoints name) (codePoints other) :=
  List.map_lt (fun _ _ less => less) (String.lt_iff_toList_lt.mp before)

/-- What a set lists and holds after any history of additions. The names listed are the normal forms
of the names given, strictly increasing by code points, and the size is their number. A name is a
member if its normal form is that of a name given. Names listed are members, and adding them again
changes nothing. Another history of the same policy that gives the same names, in any order and
number, ends in the same set. -/
theorem built_lists_normal_forms (origin : Origin) (additions : List Addition) :
    (built origin additions).caseSensitive = origin.caseSensitive ∧
    ((built origin additions).names.map codePoints).Pairwise (List.Lex (· < ·)) ∧
    (built origin additions).size = (built origin additions).names.length ∧
    (∀ name, name ∈ (built origin additions).names ↔
      ∃ other ∈ given origin additions, normalize origin.caseSensitive other = name) ∧
    (∀ name, (built origin additions).contains name = true ↔
      ∃ other ∈ given origin additions,
        normalize origin.caseSensitive name = normalize origin.caseSensitive other) ∧
    (∀ name ∈ (built origin additions).names, (built origin additions).contains name = true) ∧
    (built origin additions).insertAll (built origin additions).names = built origin additions ∧
    ∀ (origin' : Origin) (additions' : List Addition),
      origin'.caseSensitive = origin.caseSensitive →
      (∀ name, name ∈ given origin' additions' ↔ name ∈ given origin additions) →
      built origin' additions' = built origin additions := by
  have lists := built_lists origin additions
  have policy := built_caseSensitive origin additions
  refine ⟨policy, ?_, rfl, ?_, ?_, ?_, lists.insertAll_listed, ?_⟩
  · exact List.pairwise_map.mpr (lists.ordered.imp codePoints_lex)
  · rw [← policy]
    exact lists.listed
  · rw [← policy]
    exact lists.contains_iff
  · intro name member
    exact lists.contains_listed member
  · intro origin' additions' same names
    apply lists.unique (built_lists origin' additions') _ names
    rw [built_caseSensitive, policy, same]

/-- A capital sigma at the end of a word and a dotted capital, added in two ways. -/
theorem built_lists_final_sigma :
    let registry := Origin.builtins (some ["ΟΔΟΣ", "İ"]) false
    let additions : List Addition := [.register ["İ", "ΟΔΟΣ"], .add "İ"]
    built registry [] = ⟨false, ["i̇", "οδος"]⟩ ∧
    (Origin.empty false).caseSensitive = registry.caseSensitive ∧
    (∀ name, name ∈ given (.empty false) additions ↔ name ∈ given registry []) ∧
    built (.empty false) additions = built registry [] := by
  intro registry additions
  have names : ∀ name, name ∈ given (.empty false) additions ↔ name ∈ given registry [] := by
    intro name
    simp [given, registry, additions, Origin.names, Addition.names, or_comm]
  obtain ⟨-, -, -, -, -, -, -, unique⟩ := built_lists_normal_forms registry []
  exact ⟨by decide +kernel, rfl, names, unique (.empty false) additions rfl names⟩

end PhpLint.NameSet
