import Mathlib.Data.List.TakeWhile
import Mathlib.Tactic.Tauto
import PhpLint.Proofs.NameForms

/-! Which method names are accepted, and in how many steps. A name is judged by its stem, which is
left when all underscores before it are set aside; of the names that are exempt, only one is accepted
for that reason. -/

namespace PhpLint.Text

/-- A name taken apart into the underscores it starts with and a stem that starts with none. -/
structure Prefixed where
  underscores : Nat
  stem : List Char
  bare : stem.head? ≠ some '_'

namespace Prefixed

def name (parts : Prefixed) : List Char := List.replicate parts.underscores '_' ++ parts.stem

def ofName (name : List Char) : Prefixed where
  underscores := (name.takeWhile (· = '_')).length
  stem := name.dropWhile (· = '_')
  bare := by
    intro underscore
    have other := List.head?_dropWhile_not (fun c => decide (c = '_')) name
    simp [underscore] at other

/-- The same stem after one more underscore. -/
def more (parts : Prefixed) : Prefixed := { parts with underscores := parts.underscores + 1 }

theorem name_ofName (name : List Char) : (ofName name).name = name := by
  have underscores : name.takeWhile (· = '_') =
      List.replicate (name.takeWhile (· = '_')).length '_' := by
    rw [List.eq_replicate_iff]
    refine ⟨rfl, ?_⟩
    intro c member
    simpa using List.mem_takeWhile_imp member
  rw [Prefixed.name, ofName, ← underscores, List.takeWhile_append_dropWhile]

theorem ofName_name (parts : Prefixed) : ofName parts.name = parts := by
  obtain ⟨underscores, stem, bare⟩ := parts
  have all : ∀ c ∈ List.replicate underscores '_', decide (c = '_') = true := by simp
  have stop : stem.takeWhile (· = '_') = [] ∧ stem.dropWhile (· = '_') = stem := by
    cases stem with
    | nil => simp
    | cons first rest =>
        have word : first ≠ '_' := by simpa using bare
        simp [word]
  simp [ofName, name, List.takeWhile_append_of_pos all, List.dropWhile_append_of_pos all, stop]

theorem name_more (parts : Prefixed) : parts.more.name = '_' :: parts.name := rfl

theorem name_eq_nil_iff (parts : Prefixed) :
    parts.name = [] ↔ parts.underscores = 0 ∧ parts.stem = [] := by
  simp [name]

/-- From the stem alone to any number of underscores before it. -/
theorem induction {motive : Prefixed → Prop}
    (nothing : ∀ bare, motive ⟨0, [], bare⟩)
    (word : ∀ first rest bare, first ≠ '_' → motive ⟨0, first :: rest, bare⟩)
    (more : ∀ parts, motive parts → motive parts.more) (parts : Prefixed) : motive parts := by
  obtain ⟨underscores, stem, bare⟩ := parts
  induction underscores with
  | zero =>
      cases stem with
      | nil => exact nothing bare
      | cons first rest => exact word first rest bare (by simpa using bare)
  | succ underscores ih => exact more ⟨underscores, stem, bare⟩ ih

/-- One of the names that are left when underscores are set aside is exempt. -/
def Reaches (exempt : List Char → Bool) (parts : Prefixed) : Prop :=
  ∃ count ≤ parts.underscores, exempt (name { parts with underscores := count }) = true

theorem reaches_stem (exempt : List Char → Bool) {stem : List Char} (bare : stem.head? ≠ some '_') :
    Reaches exempt ⟨0, stem, bare⟩ ↔ exempt stem = true := by
  simp [Reaches, name]

theorem reaches_more (exempt : List Char → Bool) (parts : Prefixed) :
    Reaches exempt parts.more ↔ Reaches exempt parts ∨ exempt parts.more.name = true := by
  constructor
  · rintro ⟨count, within, exempted⟩
    rcases Nat.lt_or_eq_of_le within with fewer | rfl
    · exact .inl ⟨count, Nat.le_of_lt_succ fewer, exempted⟩
    · exact .inr exempted
  · rintro (⟨count, within, exempted⟩ | exempted)
    · exact ⟨count, Nat.le_succ_of_le within, exempted⟩
    · exact ⟨_, Nat.le_refl _, exempted⟩

end Prefixed

/-- Judges a method name beside any test for exempt ones. -/
def isNameBeside (exempt : List Char → Bool) : List Char → Bool
  | [] => false
  | c :: rest =>
    if exempt (c :: rest) then true
    else if c = '_' ∧ rest ≠ [] then isNameBeside exempt rest
    else camelChars (c :: rest) = c :: rest

section Beside

variable (exempt : List Char → Bool)

theorem isNameBeside_word {first : Char} (word : first ≠ '_') (rest : List Char) :
    isNameBeside exempt (first :: rest) = true ↔
      exempt (first :: rest) = true ∨ InForm lowerChar (first :: rest) := by
  rw [isNameBeside, ← camelChars_eq_self_iff]
  by_cases exempted : exempt (first :: rest) = true
  · simp [exempted]
  · simp [exempted, word]

/-- The empty name is turned down just as a lone underscore is, so the last one can be set aside too. -/
theorem isNameBeside_underscore (name : List Char) :
    isNameBeside exempt ('_' :: name) = (exempt ('_' :: name) || isNameBeside exempt name) := by
  rw [isNameBeside]
  cases exempt ('_' :: name) with
  | true => rfl
  | false =>
      cases name with
      | nil => simp [isNameBeside, camelChars, joinWords]
      | cons first rest => simp

variable {exempt} (named : exempt [] = false)

include named

/-- A name is accepted for its stem, or for an exempt name that it reaches. -/
theorem isNameBeside_iff (parts : Prefixed) :
    isNameBeside exempt parts.name = true ↔
      parts.stem ≠ [] ∧ InForm lowerChar parts.stem ∨ parts.Reaches exempt := by
  induction parts using Prefixed.induction with
  | nothing bare =>
      rw [Prefixed.reaches_stem]
      simp [Prefixed.name, isNameBeside, named]
  | word first rest bare word =>
      rw [Prefixed.reaches_stem, or_comm]
      simpa [Prefixed.name] using isNameBeside_word exempt word rest
  | more parts ih =>
      rw [Prefixed.reaches_more, Prefixed.name_more, ← or_assoc, or_comm, isNameBeside_underscore,
        Bool.or_eq_true, ih]
      rfl

end Beside

/-- Whether a name is exempt. -/
def isMagic (name : List Char) : Bool := (magicMethods.map String.toList).contains name

theorem isMagic_iff (name : List Char) :
    isMagic name = true ↔ name ∈ magicMethods.map String.toList := List.contains_iff_mem

theorem isMethodName_eq_beside (name : List Char) :
    isMethodName name = isNameBeside isMagic name := by
  induction name with
  | nil => rfl
  | cons c rest ih =>
      rw [isMethodName, isNameBeside, ih]
      simp only [isMagic_iff]

/-- An exempt name has two underscores, and its stem is accepted for itself in all cases but one. -/
theorem magic_stem (parts : Prefixed) (magic : isMagic parts.name = true) :
    parts.underscores = 2 ∧ parts.stem ≠ [] ∧
      (InForm lowerChar parts.stem ∨ parts.stem = "set_state".toList) := by
  have table : ∀ name ∈ magicMethods.map String.toList,
      (Prefixed.ofName name).underscores = 2 ∧ (Prefixed.ofName name).stem ≠ [] ∧
        (InForm lowerChar (Prefixed.ofName name).stem ∨
          (Prefixed.ofName name).stem = "set_state".toList) := by
    decide +kernel
  have stem := table parts.name ((isMagic_iff _).mp magic)
  rw [Prefixed.ofName_name] at stem
  exact stem

/-- A stem in camel case, or `set_state` after two underscores or more. -/
def Prefixed.Accepted (parts : Prefixed) : Prop :=
  parts.stem ≠ [] ∧
    (InForm lowerChar parts.stem ∨ 2 ≤ parts.underscores ∧ parts.stem = "set_state".toList)

instance (parts : Prefixed) : Decidable parts.Accepted :=
  inferInstanceAs (Decidable (_ ∧ _))

theorem isMethodName_iff (parts : Prefixed) :
    isMethodName parts.name = true ↔ parts.Accepted := by
  rw [isMethodName_eq_beside, isNameBeside_iff (by decide)]
  constructor
  · rintro (⟨filled, form⟩ | ⟨count, within, magic⟩)
    · exact ⟨filled, .inl form⟩
    · obtain ⟨rfl, filled, form⟩ := magic_stem _ magic
      exact ⟨filled, form.imp_right fun state => ⟨within, state⟩⟩
  · rintro ⟨filled, form | ⟨two, state⟩⟩
    · exact .inl ⟨filled, form⟩
    · refine .inr ⟨2, two, ?_⟩
      simp only [Prefixed.name, state]
      decide

/-- The steps that judging takes: one for no name at all, one less than there are underscores if it
ends at an exempt name, and else three more than are set aside. -/
def Prefixed.steps (parts : Prefixed) : Nat :=
  if parts.stem = [] then if parts.underscores = 0 then 1 else parts.underscores + 2
  else if 2 ≤ parts.underscores ∧ isMagic ('_' :: '_' :: parts.stem) then parts.underscores - 1
  else parts.underscores + 3

theorem Prefixed.steps_of_magic {parts : Prefixed} (magic : isMagic parts.name = true) :
    parts.steps = 1 := by
  obtain ⟨two, filled, -⟩ := magic_stem parts magic
  have exempt : isMagic ('_' :: '_' :: parts.stem) = true := by
    rw [name, two] at magic
    exact magic
  rw [steps, if_neg filled, if_pos ⟨Nat.le_of_eq two.symm, exempt⟩, two]

/-- To set one more underscore aside takes one more step, unless the name is exempt with it. -/
theorem Prefixed.steps_more {parts : Prefixed} (plain : ¬isMagic parts.more.name = true)
    (named : parts.name ≠ []) : parts.more.steps = parts.steps + 1 := by
  rw [Ne, name_eq_nil_iff] at named
  obtain ⟨underscores, stem, bare⟩ := parts
  by_cases empty : stem = []
  · have some : underscores ≠ 0 := fun none => named ⟨none, empty⟩
    simp [steps, more, empty, some]
  · by_cases exempt : isMagic ('_' :: '_' :: stem) = true
    · have other : underscores ≠ 1 := by
        rintro rfl
        exact plain exempt
      simp only [steps, more, empty, exempt, if_false, and_true]
      split <;> split <;> omega
    · simp [steps, more, empty, exempt]

theorem judgingSteps_name (parts : Prefixed) : judgingSteps parts.name = parts.steps := by
  induction parts using Prefixed.induction with
  | nothing bare => rfl
  | word first rest bare word =>
      have plain : ¬isMagic (first :: rest) = true := by
        intro magic
        have two := (magic_stem ⟨0, first :: rest, bare⟩ magic).1
        cases two
      rw [isMagic_iff] at plain
      simp [Prefixed.name, judgingSteps, Prefixed.steps, plain, word]
  | more parts ih =>
      rw [Prefixed.name_more, judgingSteps, ih, ← Prefixed.name_more]
      by_cases magic : isMagic parts.more.name = true
      · rw [if_pos ((isMagic_iff _).mp magic), Prefixed.steps_of_magic magic]
      · rw [if_neg fun member => magic ((isMagic_iff _).mpr member)]
        by_cases alone : parts.name = []
        · have nothing := (Prefixed.name_eq_nil_iff parts).mp alone
          simp [Prefixed.steps, Prefixed.more, alone, nothing]
        · rw [if_pos ⟨rfl, alone⟩, Prefixed.steps_more magic alone]

theorem isMethodName_name (parts : Prefixed) :
    isMethodName parts.name = decide parts.Accepted := by
  rw [Bool.eq_iff_iff, isMethodName_iff, decide_eq_true_eq]

theorem isMethodNameIn_eq_ok_iff (room : Nat) (name : List Char) (accepted : Bool) :
    isMethodNameIn room name = .ok accepted ↔
      judgingSteps name ≤ room ∧ isMethodName name = accepted := by
  rw [isMethodNameIn]
  by_cases short : room < judgingSteps name
  · simp [short, Nat.not_le.mpr short]
  · simp [short, Nat.not_lt.mp short]

theorem isMethodNameIn_eq_error_iff (room : Nat) (name : List Char) :
    isMethodNameIn room name = .error .operation ↔ room < judgingSteps name := by
  rw [isMethodNameIn]
  by_cases short : room < judgingSteps name
  · simp [short]
  · simp [short]

theorem isNameBeside_nothing_iff (parts : Prefixed) :
    isNameBeside (fun _ => false) parts.name = true ↔
      parts.stem ≠ [] ∧ InForm lowerChar parts.stem := by
  rw [isNameBeside_iff rfl]
  simp [Prefixed.Reaches]

/-- That names are exempt makes a difference for one stem only. -/
theorem exemption_matters_iff (parts : Prefixed) :
    isMethodName parts.name ≠ isNameBeside (fun _ => false) parts.name ↔
      2 ≤ parts.underscores ∧ parts.stem = "set_state".toList := by
  rw [Ne, Bool.eq_iff_iff, isMethodName_iff, isNameBeside_nothing_iff, Prefixed.Accepted]
  have unformed : parts.stem = "set_state".toList →
      parts.stem ≠ [] ∧ ¬InForm lowerChar parts.stem := by
    intro state
    rw [state]
    decide +kernel
  tauto

/-- Every name is in one way some underscores and a stem that starts with none. It is accepted if the
stem is, be that for its camel case or as `set_state` after two underscores or more. In limited room
it is judged, and then so, exactly if the steps fit into it. That names are exempt matters for that
one stem only, so that of them only `__set_state` is accepted for being exempt. -/
theorem isMethodNameIn_judges_stem (room : Nat) (name : List Char) :
    let parts := Prefixed.ofName name
    (parts.name = name ∧ ∀ other : Prefixed, other.name = name → other = parts) ∧
    (isMethodName name = true ↔ parts.stem ≠ [] ∧
      ('_' ∉ parts.stem ∧ (∀ first ∈ parts.stem.head?, lowerChar first = [first]) ∨
        2 ≤ parts.underscores ∧ parts.stem = "set_state".toList)) ∧
    (isMethodNameIn room name = .ok (isMethodName name) ↔ parts.steps ≤ room) ∧
    (isMethodNameIn room name = .error .operation ↔ room < parts.steps) ∧
    (isMethodName name ≠ isNameBeside (fun _ => false) name ↔
      2 ≤ parts.underscores ∧ parts.stem = "set_state".toList) ∧
    ∀ magic ∈ magicMethods, isMethodName magic.toList = true ∧
      (isNameBeside (fun _ => false) magic.toList = true ↔ magic ≠ "__set_state") := by
  intro parts
  have whole : parts.name = name := Prefixed.name_ofName name
  refine ⟨⟨whole, ?_⟩, ?_, ?_, ?_, ?_, ?_⟩
  · intro other same
    rw [← Prefixed.ofName_name other, same]
  · rw [← whole]
    exact isMethodName_iff parts
  · rw [isMethodNameIn_eq_ok_iff, ← whole, judgingSteps_name]
    simp only [and_true]
  · rw [isMethodNameIn_eq_error_iff, ← whole, judgingSteps_name]
  · rw [← whole]
    exact exemption_matters_iff parts
  · decide +kernel

/-- A stem in camel case goes unjudged behind more underscores than there is room for. -/
theorem isMethodNameIn_exceeds_room :
    let parts : Prefixed := ⟨2000, ['a'], by decide⟩
    parts.Accepted ∧ isMethodNameIn 997 parts.name = .error .operation := by
  intro parts
  constructor
  · decide +kernel
  · rw [isMethodNameIn_eq_error_iff, judgingSteps_name]
    decide +kernel

/-- After two underscores it does not matter how many more there are. -/
theorem isMethodName_two_underscores (name : List Char) :
    isMethodName ('_' :: '_' :: name) = true ↔
      (Prefixed.ofName name).stem ≠ [] ∧ (InForm lowerChar (Prefixed.ofName name).stem ∨
        (Prefixed.ofName name).stem = "set_state".toList) := by
  have judged := isMethodName_iff (Prefixed.ofName name).more.more
  rw [Prefixed.name_more, Prefixed.name_more, Prefixed.name_ofName] at judged
  rw [judged]
  simp [Prefixed.Accepted, Prefixed.more]

/-- A second underscore makes a difference to one name only, which is exempt with it. -/
theorem isMethodName_second_underscore (name : List Char) :
    isMethodName ('_' :: '_' :: name) =
      (isMethodName ('_' :: name) || decide (name = "set_state".toList)) := by
  rw [isMethodName_eq_beside, isNameBeside_underscore, ← isMethodName_eq_beside, Bool.or_comm]
  cases accepted : isMethodName ('_' :: name) with
  | true => rfl
  | false =>
      have whole := Prefixed.name_ofName name
      rw [Bool.false_or, Bool.false_or, Bool.eq_iff_iff, decide_eq_true_eq]
      constructor
      · intro magic
        rw [← whole] at magic accepted
        obtain ⟨two, filled, form | state⟩ := magic_stem (Prefixed.ofName name).more.more magic
        · have one := (isMethodName_iff (Prefixed.ofName name).more).mpr ⟨filled, .inl form⟩
          rw [Prefixed.name_more, accepted] at one
          cases one
        · have none : (Prefixed.ofName name).underscores = 0 := by simpa [Prefixed.more] using two
          rw [← whole, Prefixed.name, none]
          exact state
      · rintro rfl
        decide

end PhpLint.Text
