import Mathlib.Data.List.Basic
import PhpLint.Proofs.CaseImages
import PhpLint.Text.Naming

/-! Names in Pascal and in camel case. Both conversions drop underscores, and leave alone exactly the
names that are in the form they aim at. Pascal case is reached in one pass. Camel case is missed
where a name starts with an underscore, since the word after it is raised, and reached in two. -/

namespace PhpLint.Text

/-- A name without underscores whose first character a mapping leaves as it is. -/
def InForm (mapping : Char → List Char) (name : List Char) : Prop :=
  '_' ∉ name ∧ ∀ first ∈ name.head?, mapping first = [first]

theorem inForm_nil (mapping : Char → List Char) : InForm mapping [] := by simp [InForm]

theorem inForm_cons (mapping : Char → List Char) (first : Char) (rest : List Char) :
    '_' ∉ first :: rest ∧ mapping first = [first] ↔ InForm mapping (first :: rest) := by
  simp [InForm]

-- Decided by the first character alone, where a found instance could go through all characters.
instance (mapping : Char → List Char) : (name : List Char) → Decidable (InForm mapping name)
  | [] => .isTrue (inForm_nil mapping)
  | first :: rest => decidable_of_iff _ (inForm_cons mapping first rest)

theorem not_inForm_underscore (mapping : Char → List Char) (rest : List Char) :
    ¬InForm mapping ('_' :: rest) := by
  simp [InForm]

/-- What naming asks of a mapping: it gives something for every character, leaves its images as they
are, and gives an underscore for an underscore only. -/
structure KeepsWords (mapping : Char → List Char) : Prop where
  filled : ∀ c, mapping c ≠ []
  settled : ∀ c, ∀ image ∈ mapping c, mapping image = [image]
  plain : ∀ c, '_' ∈ mapping c → '_' = c

theorem keepsWords_mapCase {runs : List CaseRun} {expansions : List (Nat × List Nat)}
    (filled : ∀ expansion ∈ expansions, expansion.2 ≠ [])
    (closed : isClosed runs expansions = true)
    (missed : isMissed runs expansions '_'.toNat = true) :
    KeepsWords (mapCase runs expansions) where
  filled := mapCase_ne_nil filled
  settled _ _ member := mapCase_of_isSettled (isSettled_of_mem_mapCase closed member)
  plain _ member := eq_of_mem_mapCase missed (by decide) member

theorem keepsWords_upperChar : KeepsWords upperChar :=
  keepsWords_mapCase (by decide) upperRuns_isClosed (by decide +kernel)

theorem keepsWords_lowerChar : KeepsWords lowerChar :=
  keepsWords_mapCase (by decide) lowerRuns_isClosed (by decide +kernel)

theorem underscore_not_mem_joinWords (raise : Bool) (name : List Char) :
    '_' ∉ joinWords raise name := by
  induction name generalizing raise with
  | nil => simp [joinWords]
  | cons c rest ih =>
      rw [joinWords]
      split
      next underscore => exact ih true
      next word =>
        rw [List.mem_append, not_or]
        refine ⟨?_, ih false⟩
        cases raise with
        | true =>
            intro raised
            exact word (keepsWords_upperChar.plain c raised).symm
        | false =>
            intro kept
            exact word (List.mem_singleton.mp kept).symm

theorem joinWords_false_eq_self_iff (name : List Char) :
    joinWords false name = name ↔ '_' ∉ name := by
  constructor
  · intro same
    rw [← same]
    exact underscore_not_mem_joinWords false name
  · intro plain
    induction name with
    | nil => rfl
    | cons c rest ih =>
        rw [List.mem_cons, not_or] at plain
        simp [joinWords, Ne.symm plain.1, ih plain.2]

namespace KeepsWords

variable {mapping : Char → List Char} (keeps : KeepsWords mapping)

include keeps

theorem append_eq_cons_iff (c : Char) (more rest : List Char) :
    mapping c ++ more = c :: rest ↔ mapping c = [c] ∧ more = rest := by
  constructor
  · intro same
    obtain ⟨image, images, split⟩ := List.exists_cons_of_ne_nil (keeps.filled c)
    have head : image = c := by
      rw [split, List.cons_append, List.cons.injEq] at same
      exact same.1
    -- A character that stands in its own image is all of it.
    have single : mapping c = [c] := keeps.settled c c (by simp [split, head])
    rw [single, List.singleton_append, List.cons.injEq] at same
    exact ⟨single, same.2⟩
  · rintro ⟨single, rfl⟩
    rw [single, List.singleton_append]

variable {first : Char} (word : first ≠ '_') (rest : List Char)

include word

theorem joined_eq_iff :
    mapping first ++ joinWords false rest = first :: rest ↔ InForm mapping (first :: rest) := by
  rw [keeps.append_eq_cons_iff, joinWords_false_eq_self_iff, InForm, List.mem_cons, not_or]
  simp [word.symm, and_comm]

theorem inForm_joined : InForm mapping (mapping first ++ joinWords false rest) := by
  constructor
  · rw [List.mem_append, not_or]
    refine ⟨?_, underscore_not_mem_joinWords false rest⟩
    intro mapped
    exact word (keeps.plain first mapped).symm
  · intro image head
    rw [List.head?_append_of_ne_nil _ (keeps.filled first)] at head
    exact keeps.settled first image (List.mem_of_mem_head? head)

end KeepsWords

theorem pascalChars_cons {first : Char} (word : first ≠ '_') (rest : List Char) :
    pascalChars (first :: rest) = upperChar first ++ joinWords false rest := by
  simp [pascalChars, joinWords, word]

theorem pascalChars_underscore (rest : List Char) :
    pascalChars ('_' :: rest) = pascalChars rest := by
  simp [pascalChars, joinWords]

theorem inForm_pascalChars (name : List Char) : InForm upperChar (pascalChars name) := by
  induction name with
  | nil => exact inForm_nil upperChar
  | cons first rest ih =>
      by_cases word : first = '_'
      · rw [word, pascalChars_underscore]
        exact ih
      · rw [pascalChars_cons word]
        exact keepsWords_upperChar.inForm_joined word rest

theorem pascalChars_ne_underscore (name rest : List Char) : pascalChars name ≠ '_' :: rest := by
  intro same
  exact (inForm_pascalChars name).1 (by simp [same])

theorem pascalChars_eq_self_iff (name : List Char) :
    pascalChars name = name ↔ InForm upperChar name := by
  cases name with
  | nil => exact iff_of_true rfl (inForm_nil upperChar)
  | cons first rest =>
      by_cases word : first = '_'
      · rw [word]
        exact iff_of_false (pascalChars_ne_underscore _ rest) (not_inForm_underscore upperChar rest)
      · rw [pascalChars_cons word, keepsWords_upperChar.joined_eq_iff word]

theorem camelChars_cons {first : Char} (word : first ≠ '_') (rest : List Char) :
    camelChars (first :: rest) = lowerChar first ++ joinWords false rest := by
  rw [camelChars, if_neg word]

theorem camelChars_underscore (rest : List Char) : camelChars ('_' :: rest) = pascalChars rest := by
  simp [camelChars, pascalChars]

theorem camelChars_eq_self_iff (name : List Char) :
    camelChars name = name ↔ InForm lowerChar name := by
  cases name with
  | nil => exact iff_of_true rfl (inForm_nil lowerChar)
  | cons first rest =>
      by_cases word : first = '_'
      · rw [word, camelChars_underscore]
        exact iff_of_false (pascalChars_ne_underscore _ rest) (not_inForm_underscore lowerChar rest)
      · rw [camelChars_cons word, keepsWords_lowerChar.joined_eq_iff word]

theorem inForm_camelChars {first : Char} (word : first ≠ '_') (rest : List Char) :
    InForm lowerChar (camelChars (first :: rest)) := by
  rw [camelChars_cons word]
  exact keepsWords_lowerChar.inForm_joined word rest

theorem underscore_not_mem_camelChars (name : List Char) : '_' ∉ camelChars name := by
  cases name with
  | nil => exact (inForm_nil lowerChar).1
  | cons first rest =>
      by_cases word : first = '_'
      · rw [word, camelChars_underscore]
        exact (inForm_pascalChars rest).1
      · exact (inForm_camelChars word rest).1

/-- A name in Pascal case is in camel case too if its first character has no lower case. -/
theorem inForm_lowerChar_pascalChars_iff (name : List Char) :
    InForm lowerChar (pascalChars name) ↔
      ∀ letter ∈ name.find? (· ≠ '_'), ∀ image ∈ (upperChar letter).head?,
        lowerChar image = [image] := by
  induction name with
  | nil => exact iff_of_true (inForm_nil lowerChar) (by simp)
  | cons first rest ih =>
      by_cases word : first = '_'
      · rw [word, pascalChars_underscore, List.find?_cons_of_neg (by simp)]
        exact ih
      · have plain := (inForm_pascalChars (first :: rest)).1
        rw [pascalChars_cons word] at plain ⊢
        rw [List.find?_cons_of_pos (by simpa using word), InForm,
          List.head?_append_of_ne_nil _ (keepsWords_upperChar.filled first)]
        simp [plain]

theorem camelChars_camelChars_eq_iff (name : List Char) :
    camelChars (camelChars name) = camelChars name ↔
      (name.head? = some '_' → ∀ letter ∈ name.find? (· ≠ '_'),
        ∀ image ∈ (upperChar letter).head?, lowerChar image = [image]) := by
  rw [camelChars_eq_self_iff]
  cases name with
  | nil => exact iff_of_true (inForm_nil lowerChar) (by simp)
  | cons first rest =>
      by_cases word : first = '_'
      · rw [word, camelChars_underscore, inForm_lowerChar_pascalChars_iff]
        simp
      · simp [inForm_camelChars word rest, word]

/-- The result of a first pass starts with no underscore, so that a second one lowers it. -/
theorem camelChars_thrice (name : List Char) :
    camelChars (camelChars (camelChars name)) = camelChars (camelChars name) := by
  rw [camelChars_camelChars_eq_iff]
  intro underscore
  exact absurd (List.mem_of_mem_head? underscore) (underscore_not_mem_camelChars name)

theorem toList_camelCase (name : String) : (camelCase name).toList = camelChars name.toList :=
  String.toList_ofList

theorem toList_pascalCase (name : String) : (pascalCase name).toList = pascalChars name.toList :=
  String.toList_ofList

theorem pascalCase_eq_self_iff (name : String) :
    pascalCase name = name ↔ InForm upperChar name.toList := by
  rw [← String.toList_inj, toList_pascalCase, pascalChars_eq_self_iff]

theorem inForm_pascalCase (name : String) : InForm upperChar (pascalCase name).toList := by
  rw [toList_pascalCase]
  exact inForm_pascalChars name.toList

theorem exists_pascalCase_iff (name : String) :
    (∃ other, pascalCase other = name) ↔ InForm upperChar name.toList := by
  constructor
  · rintro ⟨other, rfl⟩
    exact inForm_pascalCase other
  · intro form
    exact ⟨name, (pascalCase_eq_self_iff name).mpr form⟩

/-- A conversion to camel case leaves no underscore, changes nothing in a name in camel case, and is
finished after two passes. One pass is not enough exactly for a name that starts with an underscore
and whose first letter, once raised, has a lower case: such a name is put into Pascal case. -/
theorem camelCase_settles_in_two_passes (name : String) :
    '_' ∉ (camelCase name).toList ∧
    (camelCase name = name ↔ InForm lowerChar name.toList) ∧
    camelCase ("_" ++ name) = pascalCase name ∧
    (camelCase (camelCase name) ≠ camelCase name ↔
      name.toList.head? = some '_' ∧ ∃ letter ∈ name.toList.find? (· ≠ '_'),
        ∃ image ∈ (upperChar letter).head?, lowerChar image ≠ [image]) ∧
    camelCase (camelCase (camelCase name)) = camelCase (camelCase name) := by
  simp only [ne_eq, ← String.toList_inj, toList_camelCase, toList_pascalCase, String.toList_append]
  refine ⟨underscore_not_mem_camelChars _, camelChars_eq_self_iff _, camelChars_underscore _, ?_,
    camelChars_thrice _⟩
  rw [camelChars_camelChars_eq_iff]
  simp only [Classical.not_imp, not_forall]

/-- A leading underscore leads to a name that is not in camel case. -/
theorem camelCase_raises_after_underscore :
    camelCase "_foo" = "Foo" ∧ camelCase (camelCase "_foo") = "foo" := by
  decide +kernel

end PhpLint.Text
