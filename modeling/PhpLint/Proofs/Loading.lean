import PhpLint.Settings.FileTree
import PhpLint.Toml.Document

/-! Loading a configuration: which settings file counts, what its contents come to, and how its table
and the overrides give each field a value. -/

namespace PhpLint.Settings

def nearest? (chain : List Directory) : Option Directory := chain.find? (·.settings.isSome)

/-- The settings table that the contents of a file come to. -/
inductive Holds (reader : Reader) (bytes : ByteArray) : Table → Prop
  | malformed {text : String} (decoded : String.fromUTF8? bytes = some text)
      (refused : reader.read text = .error .malformed) : Holds reader bytes []
  | noTool {text : String} {document : Table} (decoded : String.fromUTF8? bytes = some text)
      (read : reader.read text = .ok document) (absent : document.lookup "tool" = none) :
      Holds reader bytes []
  | noSection {text : String} {document tool : Table} (decoded : String.fromUTF8? bytes = some text)
      (read : reader.read text = .ok document) (inside : document.lookup "tool" = some (.table tool))
      (absent : tool.lookup "phpsniff" = none) : Holds reader bytes []
  | ofSection {text : String} {document tool settings : Table}
      (decoded : String.fromUTF8? bytes = some text) (read : reader.read text = .ok document)
      (inside : document.lookup "tool" = some (.table tool))
      (given : tool.lookup "phpsniff" = some (.table settings)) : Holds reader bytes settings

/-- The contents of a file from which no settings table is taken, and why. -/
inductive Obstructs (reader : Reader) (bytes : ByteArray) : LoadError → Prop
  | undecodable (broken : String.fromUTF8? bytes = none) : Obstructs reader bytes .undecodable
  | oversizedInteger {text : String} {most digits : Nat}
      (decoded : String.fromUTF8? bytes = some text)
      (refused : reader.read text = .error (.oversizedInteger most digits)) :
      Obstructs reader bytes (.oversizedInteger most digits)
  | nestedTooDeeply {text : String} (decoded : String.fromUTF8? bytes = some text)
      (refused : reader.read text = .error .nestedTooDeeply) : Obstructs reader bytes .nestedTooDeeply
  | toolNotTable {text : String} {document : Table} {found : Value}
      (decoded : String.fromUTF8? bytes = some text) (read : reader.read text = .ok document)
      (inside : document.lookup "tool" = some found) (other : ∀ tool, found ≠ .table tool) :
      Obstructs reader bytes (.toolNotTable found)
  | settingsNotTable {text : String} {document tool : Table} {found : Value}
      (decoded : String.fromUTF8? bytes = some text) (read : reader.read text = .ok document)
      (inside : document.lookup "tool" = some (.table tool))
      (given : tool.lookup "phpsniff" = some found) (other : ∀ settings, found ≠ .table settings) :
      Obstructs reader bytes (.settingsNotTable found)

/-- The settings table of a chain: that of its nearest file, an empty one without a file. -/
def Settles (reader : Reader) (chain : List Directory) (table : Table) : Prop :=
  match nearest? chain with
  | none => table = []
  | some directory => ∃ bytes, directory.settings = some bytes ∧ Holds reader bytes table

section Nearest

theorem nearestTable_eq_nearest (reader : Reader) (chain : List Directory) :
    nearestTable reader chain = nearestTable reader (nearest? chain).toList := by
  induction chain with
  | nil => rfl
  | cons directory parents ih =>
      cases found : directory.settings with
      | none =>
          have passed : nearest? (directory :: parents) = nearest? parents := by
            simp [nearest?, found]
          rw [nearestTable, found, passed]
          exact ih
      | some bytes =>
          have taken : nearest? (directory :: parents) = some directory := by
            simp [nearest?, found]
          rw [taken, Option.toList_some, nearestTable, nearestTable, found]

variable {reader : Reader} {directory : Directory} {bytes : ByteArray}
variable (file : directory.settings = some bytes)

include file

theorem nearestTable_of_malformed {text : String} (decoded : String.fromUTF8? bytes = some text)
    (refused : reader.read text = .error .malformed) :
    nearestTable reader [directory] =
      ([unreadableRecord directory (reader.complaint text)], .ok []) := by
  simp [nearestTable, file, decoded, refused]

theorem nearestTable_of_holds {table : Table} (holds : Holds reader bytes table) :
    (nearestTable reader [directory]).2 = .ok table := by
  cases holds with
  | malformed decoded refused => rw [nearestTable_of_malformed file decoded refused]
  | noTool decoded read absent => simp [nearestTable, file, decoded, read, entryOr, absent]
  | noSection decoded read inside absent =>
      simp [nearestTable, file, decoded, read, entryOr, inside, absent]
  | ofSection decoded read inside given =>
      simp [nearestTable, file, decoded, read, entryOr, inside, given]

theorem nearestTable_of_obstructs {error : LoadError} (obstructs : Obstructs reader bytes error) :
    (nearestTable reader [directory]).2 = .error error := by
  cases obstructs with
  | undecodable broken => simp [nearestTable, file, broken]
  | oversizedInteger decoded refused => simp [nearestTable, file, decoded, refused]
  | nestedTooDeeply decoded refused => simp [nearestTable, file, decoded, refused]
  | @toolNotTable _ _ found decoded read inside other =>
      cases found with
      | table tool => exact absurd rfl (other tool)
      | _ => simp [nearestTable, file, decoded, read, entryOr, inside]
  | @settingsNotTable _ _ _ found decoded read inside given other =>
      cases found with
      | table settings => exact absurd rfl (other settings)
      | _ => simp [nearestTable, file, decoded, read, entryOr, inside, given]

end Nearest

theorem table_or_not (value : Value) :
    (∃ table, value = .table table) ∨ ∀ table, value ≠ .table table := by
  cases value with
  | table entries => exact .inl ⟨entries, rfl⟩
  | _ => exact .inr (by simp)

theorem holds_or_obstructs (reader : Reader) (bytes : ByteArray) :
    (∃ table, Holds reader bytes table) ∨ ∃ error, Obstructs reader bytes error := by
  cases decoded : String.fromUTF8? bytes with
  | none => exact .inr ⟨_, .undecodable decoded⟩
  | some text =>
      cases read : reader.read text with
      | error error =>
          cases error with
          | malformed => exact .inl ⟨_, .malformed decoded read⟩
          | oversizedInteger most digits => exact .inr ⟨_, .oversizedInteger decoded read⟩
          | nestedTooDeeply => exact .inr ⟨_, .nestedTooDeeply decoded read⟩
      | ok document =>
          cases inside : document.lookup "tool" with
          | none => exact .inl ⟨_, .noTool decoded read inside⟩
          | some found =>
              rcases table_or_not found with ⟨tool, rfl⟩ | other
              · cases given : tool.lookup "phpsniff" with
                | none => exact .inl ⟨_, .noSection decoded read inside given⟩
                | some held =>
                    rcases table_or_not held with ⟨settings, rfl⟩ | other
                    · exact .inl ⟨_, .ofSection decoded read inside given⟩
                    · exact .inr ⟨_, .settingsNotTable decoded read inside given other⟩
              · exact .inr ⟨_, .toolNotTable decoded read inside other⟩

theorem nearestTable_of_settles {reader : Reader} {chain : List Directory} {table : Table}
    (settles : Settles reader chain table) : (nearestTable reader chain).2 = .ok table := by
  rw [nearestTable_eq_nearest]
  unfold Settles at settles
  split at settles
  next none => rw [none, settles]; rfl
  next directory found =>
    obtain ⟨bytes, file, holds⟩ := settles
    rw [found]
    exact nearestTable_of_holds file holds

/-- The override of a key, if there is one other than null. -/
def given (overrides : Table) (key : String) : Option Value :=
  (overrides.find? fun (name, value) => name = key ∧ value.isNull = false).map Prod.snd

theorem lookup_merge (overrides table : Table) (key : String) :
    (merge overrides table).lookup key = (given overrides key).or (table.lookup key) := by
  induction overrides with
  | nil => rfl
  | cons entry rest ih =>
      obtain ⟨name, value⟩ := entry
      by_cases null : value.isNull = true
      · simpa [merge, given, null] using ih
      · by_cases same : name = key
        · simp [merge, given, null, same]
        · have other : (key == name) = false := beq_false_of_ne (Ne.symm same)
          simpa [merge, given, null, same, List.lookup_cons, other] using ih

/-- What stands for a field that nobody gives. -/
def defaultValue : Field → Value
  | .builtinFunctions => .list (Config.default.builtinFunctions.map .text)
  | .caseSensitiveCalls => .boolean Config.default.caseSensitiveCalls
  | .indentUnit => .text Config.default.indentUnit
  | .expandTree => .boolean Config.default.expandTree

/-- The value of a field: its override, else what the table has, else its default. -/
def resolved (overrides table : Table) (field : Field) : Value :=
  ((given overrides field.key).or (table.lookup field.key)).getD (defaultValue field)

def fieldwise (overrides table : Table) : Table :=
  [Field.builtinFunctions, .caseSensitiveCalls, .indentUnit, .expandTree].map fun field =>
    (field.key, resolved overrides table field)

theorem fieldwise_congr {overrides others table other : Table}
    (same : ∀ field : Field, (given overrides field.key).or (table.lookup field.key) =
      (given others field.key).or (other.lookup field.key)) :
    fieldwise overrides table = fieldwise others other := by
  simp only [fieldwise, resolved, same]

theorem lookup_fieldwise (overrides table : Table) (field : Field) :
    (fieldwise overrides table).lookup field.key = some (resolved overrides table field) := by
  cases field <;> rfl

theorem fieldOr_eq_read {α : Type} {field : Field} {absent : α}
    {read : Value → Except (List FieldError) α} (standard : read (defaultValue field) = .ok absent)
    (table : Table) :
    fieldOr table field absent read =
      read ((table.lookup field.key).getD (defaultValue field)) := by
  unfold fieldOr
  cases table.lookup field.key with
  | none => exact standard.symm
  | some value => rfl

/-- The value that a table has for a field, or else the one that stands for it. -/
def valueOf (table : Table) (field : Field) : Value :=
  (table.lookup field.key).getD (defaultValue field)

/-- What stands for a field is read as the default, so every field is read from a value. -/
theorem fieldOr_eq_read_valueOf (table : Table) :
    fieldOr table .builtinFunctions Config.default.builtinFunctions readNames =
      readNames (valueOf table .builtinFunctions) ∧
    fieldOr table .caseSensitiveCalls Config.default.caseSensitiveCalls
      (single .caseSensitiveCalls readBoolean) =
      single .caseSensitiveCalls readBoolean (valueOf table .caseSensitiveCalls) ∧
    fieldOr table .indentUnit Config.default.indentUnit (single .indentUnit readText) =
      single .indentUnit readText (valueOf table .indentUnit) ∧
    fieldOr table .expandTree Config.default.expandTree (single .expandTree readBoolean) =
      single .expandTree readBoolean (valueOf table .expandTree) := by
  refine ⟨?_, ?_, ?_, ?_⟩
  all_goals
    apply fieldOr_eq_read
    rfl

theorem validate_congr {table other : Table}
    (same : ∀ field : Field, valueOf table field = valueOf other field) :
    Config.validate table = Config.validate other := by
  unfold Config.validate
  simp only [fieldOr_eq_read_valueOf, same]

theorem validate_merge (overrides table : Table) :
    Config.validate (merge overrides table) = Config.validate (fieldwise overrides table) := by
  apply validate_congr
  intro field
  rw [valueOf, valueOf, lookup_merge, lookup_fieldwise]
  rfl

theorem load_eq (reader : Reader) (chain : List Directory) (overrides : Table) :
    load reader chain overrides =
      ⟨(nearestTable reader chain).1, (nearestTable reader chain).2 >>= fun table =>
        (Config.validate (fieldwise overrides table)).mapError .invalid⟩ := by
  rw [load]
  obtain ⟨log, found⟩ := nearestTable reader chain
  cases found with
  | error error => rfl
  | ok table =>
      have validated : ((Except.ok table : Except LoadError Table) >>= fun table =>
          (Config.validate (fieldwise overrides table)).mapError .invalid) =
          (Config.validate (fieldwise overrides table)).mapError .invalid := rfl
      simp only [validate_merge, validated]
      cases Config.validate (fieldwise overrides table) with
      | error errors => rfl
      | ok config => rfl

theorem load_result_of_settles {reader : Reader} {chain : List Directory} {table : Table}
    (settles : Settles reader chain table) (overrides : Table) :
    (load reader chain overrides).result =
      (Config.validate (fieldwise overrides table)).mapError .invalid := by
  rw [load_eq, nearestTable_of_settles settles]
  rfl

theorem load_congr (reader : Reader) {chain other : List Directory} {overrides others : Table}
    (same : nearest? chain = nearest? other)
    (agree : ∀ key, given overrides key = given others key) :
    load reader chain overrides = load reader other others := by
  have fields : fieldwise overrides = fieldwise others := by
    funext table
    apply fieldwise_congr
    intro field
    rw [agree]
  rw [load_eq, load_eq, fields, nearestTable_eq_nearest, same, ← nearestTable_eq_nearest]

theorem nearest?_of_agreement {below above other : List Directory}
    (found : ∃ directory ∈ below, directory.settings.isSome) :
    nearest? (below ++ above) = nearest? (below ++ other) := by
  have taken : (nearest? below).isSome := by
    rw [nearest?, List.find?_isSome]
    exact found
  obtain ⟨directory, first⟩ := Option.isSome_iff_exists.mp taken
  rw [nearest?, nearest?, List.find?_append, List.find?_append, ← nearest?, first]
  rfl

theorem chain_split (tree : FileTree) {place : List String} {count : Nat}
    (inside : count ≤ place.length) :
    tree.chain place =
      ((List.range (place.length + 1 - count)).map fun more =>
        tree.directory (place.take (count + more))).reverse ++
      ((List.range count).map fun fewer => tree.directory (place.take fewer)).reverse := by
  have total : place.length + 1 = count + (place.length + 1 - count) := by omega
  rw [FileTree.chain, total, List.range_add, List.map_append, List.reverse_append, List.map_map]
  simp [Function.comp_def]

/-- Two trees of files give the same where they agree from the place up to a directory with settings. -/
theorem load_of_agreeing_trees (reader : Reader) {tree changed : FileTree} {path : String}
    {place : List String} {count : Nat} (located : locate path = some place) (inside : count ≤ place.length)
    (present : (tree.directory (place.take count)).settings.isSome)
    (agree : ∀ more, count ≤ more → more ≤ place.length →
      changed.directory (place.take more) = tree.directory (place.take more))
    (overrides : Table) : changed.load reader path overrides = tree.load reader path overrides := by
  have below : ((List.range (place.length + 1 - count)).map fun more =>
      changed.directory (place.take (count + more))) =
      (List.range (place.length + 1 - count)).map fun more =>
        tree.directory (place.take (count + more)) := by
    apply List.map_congr_left
    intro more member
    have bound := List.mem_range.mp member
    exact agree (count + more) (by omega) (by omega)
  have nearest : nearest? (changed.chain place) = nearest? (tree.chain place) := by
    rw [chain_split changed inside, chain_split tree inside, below]
    apply nearest?_of_agreement
    refine ⟨tree.directory (place.take count), ?_, present⟩
    rw [List.mem_reverse, List.mem_map]
    exact ⟨0, List.mem_range.mpr (by omega), rfl⟩
  have same : load reader (changed.chain place) overrides = load reader (tree.chain place) overrides :=
    load_congr reader nearest fun _ => rfl
  simp only [FileTree.load, located, same]

/-- A configuration is loaded from the nearest settings file and the overrides that are not null, and
from nothing else: no file above the nearest one has a say. Where the file comes to a settings table,
the outcome is that of the validation of the fields one by one, so what the table has for a field with
an override does not matter. -/
theorem load_follows_nearest_file (reader : Reader) (overrides : Table) :
    (∀ chain other others, nearest? chain = nearest? other →
      (∀ key, given overrides key = given others key) →
      load reader chain overrides = load reader other others) ∧
    (∀ below directory above other, directory.settings.isSome →
      load reader (below ++ directory :: above) overrides =
        load reader (below ++ directory :: other) overrides) ∧
    (∀ (tree changed : FileTree) path place count, locate path = some place →
      count ≤ place.length → (tree.directory (place.take count)).settings.isSome →
      (∀ more, count ≤ more → more ≤ place.length →
        changed.directory (place.take more) = tree.directory (place.take more)) →
      changed.load reader path overrides = tree.load reader path overrides) ∧
    (∀ chain table, Settles reader chain table →
      (load reader chain overrides).result =
        (Config.validate (fieldwise overrides table)).mapError .invalid) ∧
    ∀ chain other table table', Settles reader chain table → Settles reader other table' →
      (∀ field : Field, given overrides field.key = none →
        table.lookup field.key = table'.lookup field.key) →
      (load reader chain overrides).result = (load reader other overrides).result := by
  refine ⟨fun _ _ _ => load_congr reader, ?_, ?_, ?_, ?_⟩
  · intro below directory above other present
    apply load_congr reader _ fun _ => rfl
    rw [List.append_cons, List.append_cons below directory other]
    exact nearest?_of_agreement ⟨directory, by simp, present⟩
  · intro tree changed path place count located inside present agree
    exact load_of_agreeing_trees reader located inside present agree overrides
  · intro chain table settles
    exact load_result_of_settles settles overrides
  · intro chain other table table' settles settles' agree
    have fields : fieldwise overrides table = fieldwise overrides table' := by
      apply fieldwise_congr
      intro field
      cases hidden : given overrides field.key with
      | none => rw [agree field hidden]
      | some value => rfl
    rw [load_result_of_settles settles, load_result_of_settles settles', fields]

theorem fromUTF8?_toUTF8 (text : String) : String.fromUTF8? text.toUTF8 = some text := by
  have valid : text.toUTF8.IsValidUTF8 := text.isValidUTF8
  rw [String.fromUTF8?, dif_pos valid]
  rfl

theorem holds_toUTF8 {reader : Reader} {text : String} {settings : Table}
    (read : reader.read text = .ok [("tool", .table [("phpsniff", .table settings)])]) :
    Holds reader text.toUTF8 settings :=
  .ofSection (fromUTF8?_toUTF8 text) read rfl rfl

/-- A number stands for the indentation in the nearest file, and the file above that one is not
well-formed. An override hides the number; one that is null hides nothing. -/
theorem load_follows_file_with_hidden_number :
    let table : Table := [("indent_unit", .integer 1)]
    let reader : Reader :=
      ⟨fun text => if text = "x" then .error .malformed
        else .ok [("tool", .table [("phpsniff", .table table)])], fun _ => "Expected '='"⟩
    let overrides : Table := [("indent_unit", .text "\t"), ("expand_tree", .null)]
    let nearest : Directory := ⟨"/w/src", some "y".toUTF8⟩
    let broken : Directory := ⟨"/w", some "x".toUTF8⟩
    let tree (above : List (List String × ByteArray)) : FileTree :=
      ⟨"/w", (["src", fileName], "y".toUTF8) :: above⟩
    Settles reader [nearest, broken] table ∧
    load reader [nearest, broken] overrides = load reader [nearest] [("indent_unit", .text "\t")] ∧
    load reader [nearest, broken] overrides = load reader [nearest] overrides ∧
    (tree [([fileName], "x".toUTF8)]).load reader "src" overrides =
      (tree []).load reader "src" overrides ∧
    (load reader [nearest, broken] overrides).result = .ok ⟨[], true, "\t", false⟩ ∧
    (load reader [nearest, broken] overrides).result = (load reader [] overrides).result := by
  intro table reader overrides nearest broken tree
  have settles : Settles reader [nearest, broken] table := ⟨_, rfl, holds_toUTF8 rfl⟩
  have agree : ∀ key, given overrides key = given [("indent_unit", .text "\t")] key := by
    intro key
    by_cases same : "indent_unit" = key <;> simp [overrides, given, same, Value.isNull]
  have all := load_follows_nearest_file reader overrides
  refine ⟨settles, all.1 _ _ _ rfl agree, all.2.1 [] nearest [broken] [] rfl, ?_, ?_, ?_⟩
  · apply all.2.2.1 (tree []) _ "src" ["src"] 1 rfl (Nat.le_refl 1) rfl
    intro more least most
    obtain rfl : more = 1 := Nat.le_antisymm most least
    rfl
  · rw [all.2.2.2.1 _ table settles]
    rfl
  · apply all.2.2.2.2 _ [] table [] settles rfl
    intro field free
    cases field with
    | indentUnit => cases free
    | _ => rfl

/-- The errors whose wording says that validation failed. -/
def LoadError.ByValidation (error : LoadError) : Prop :=
  ∃ wording, error.message? = some wording ∧
    "Configuration validation failed".toList <+: wording.toList

theorem byValidation_invalid (errors : List FieldError) : (LoadError.invalid errors).ByValidation := by
  refine ⟨_, rfl, ?_⟩
  rw [String.toList_append]
  exact List.IsPrefix.trans (by decide) (List.prefix_append _ _)

theorem not_byValidation_of_obstructs {reader : Reader} {bytes : ByteArray} {error : LoadError}
    (obstructs : Obstructs reader bytes error) : ¬error.ByValidation := by
  rintro ⟨wording, worded, start⟩
  -- no other wording starts with the same letter
  have first : wording.toList.head? = some 'C' := by
    obtain ⟨rest, same⟩ := start
    rw [← same]
    rfl
  cases obstructs with
  | undecodable broken => cases worded
  | oversizedInteger decoded refused =>
      obtain rfl := Option.some.inj worded
      simp [String.toList_append] at first
  | nestedTooDeeply decoded refused =>
      obtain rfl := Option.some.inj worded
      cases first
  | toolNotTable decoded read inside other =>
      obtain rfl := Option.some.inj worded
      simp [String.toList_append] at first
  | settingsNotTable decoded read inside given other =>
      obtain rfl := Option.some.inj worded
      simp [String.toList_append] at first

section Failures

variable {reader : Reader} {chain : List Directory} {directory : Directory} {bytes : ByteArray}

theorem settles_of_nearest {table : Table} (nearest : nearest? chain = some directory)
    (file : directory.settings = some bytes) (holds : Holds reader bytes table) :
    Settles reader chain table := by
  rw [Settles, nearest]
  exact ⟨bytes, file, holds⟩

theorem load_result_of_obstructs {error : LoadError} (nearest : nearest? chain = some directory)
    (file : directory.settings = some bytes) (obstructs : Obstructs reader bytes error)
    (overrides : Table) : (load reader chain overrides).result = .error error := by
  rw [load_eq, nearestTable_eq_nearest, nearest]
  exact congrArg (· >>= _) (nearestTable_of_obstructs file obstructs)

theorem settles_or_obstructs (reader : Reader) (chain : List Directory) :
    (∃ table, Settles reader chain table) ∨
      ∃ directory bytes error, nearest? chain = some directory ∧ directory.settings = some bytes ∧
        Obstructs reader bytes error := by
  cases nearest : nearest? chain with
  | none => exact .inl ⟨[], by rw [Settles, nearest]⟩
  | some directory =>
      have present := List.find?_some (p := fun found : Directory => found.settings.isSome) nearest
      obtain ⟨bytes, file⟩ := Option.isSome_iff_exists.mp present
      rcases holds_or_obstructs reader bytes with ⟨table, holds⟩ | ⟨error, obstructs⟩
      · exact .inl ⟨table, settles_of_nearest nearest file holds⟩
      · exact .inr ⟨directory, bytes, error, rfl, file, obstructs⟩

end Failures

/-- Loading fails by validation alone, unless the contents of the nearest file are such that no settings
table is taken from them: then that is what it fails with. A file that is decoded but not well-formed
is warned of, and counts as empty. -/
theorem load_fails_by_validation_unless_obstructed (reader : Reader) (chain : List Directory)
    (overrides : Table) :
    ((∀ error, (load reader chain overrides).result = .error error → error.ByValidation) ↔
      ∀ directory bytes error, nearest? chain = some directory →
        directory.settings = some bytes → ¬Obstructs reader bytes error) ∧
    ∀ directory bytes, nearest? chain = some directory → directory.settings = some bytes →
      (∀ error, Obstructs reader bytes error → (load reader chain overrides).result = .error error) ∧
      ∀ text, String.fromUTF8? bytes = some text → reader.read text = .error .malformed →
        (load reader chain overrides).log = [unreadableRecord directory (reader.complaint text)] ∧
        (load reader chain overrides).result = (load reader [] overrides).result := by
  refine ⟨⟨?_, ?_⟩, ?_⟩
  · intro alone directory bytes error nearest file obstructs
    have failed := load_result_of_obstructs nearest file obstructs overrides
    exact not_byValidation_of_obstructs obstructs (alone error failed)
  · intro free error failed
    rcases settles_or_obstructs reader chain with ⟨table, settles⟩ | ⟨directory, bytes, other, found⟩
    · rw [load_result_of_settles settles] at failed
      cases valid : Config.validate (fieldwise overrides table) with
      | error errors =>
          rw [valid] at failed
          cases failed
          exact byValidation_invalid errors
      | ok config =>
          rw [valid] at failed
          cases failed
    · exact absurd found.2.2 (free directory bytes other found.1 found.2.1)
  · intro directory bytes nearest file
    refine ⟨fun error obstructs => load_result_of_obstructs nearest file obstructs overrides, ?_⟩
    intro text decoded refused
    have settles : Settles reader chain [] :=
      settles_of_nearest nearest file (.malformed decoded refused)
    have settlesEmpty : Settles reader [] [] := rfl
    constructor
    · rw [load_eq, nearestTable_eq_nearest, nearest]
      exact congrArg Prod.fst (nearestTable_of_malformed file decoded refused)
    · rw [load_result_of_settles settles, load_result_of_settles settlesEmpty]

/-- One byte that starts no character: loading stops there, with no warning and no configuration. It
also stops where `tool` is a number. -/
theorem load_stops_at_undecodable_file :
    let undecodable : Directory := ⟨"/w", some ⟨#[255]⟩⟩
    let numbered : Directory := ⟨"/w", some "tool = 1".toUTF8⟩
    String.fromUTF8? ⟨#[255]⟩ = none ∧
    (∀ reader, load reader [undecodable] [] = ⟨[], .error .undecodable⟩) ∧
    (∀ reader : Reader, reader.read "tool = 1" = .ok [("tool", .integer 1)] →
      (load reader [numbered] []).result = .error (.toolNotTable (.integer 1))) ∧
    ¬LoadError.undecodable.ByValidation ∧ ¬(LoadError.toolNotTable (.integer 1)).ByValidation ∧
    ∀ reader, (load reader [] []).result = .ok Config.default := by
  intro undecodable numbered
  have broken : String.fromUTF8? ⟨#[255]⟩ = none := by decide
  have obstructs (reader : Reader) (read : reader.read "tool = 1" = .ok [("tool", .integer 1)]) :
      Obstructs reader "tool = 1".toUTF8 (.toolNotTable (.integer 1)) :=
    .toolNotTable (fromUTF8?_toUTF8 _) read rfl (by simp)
  refine ⟨broken, ?_, ?_, ?_, ?_, fun _ => rfl⟩
  · intro reader
    simp [load, nearestTable, undecodable, broken]
  · intro reader read
    exact load_result_of_obstructs rfl rfl (obstructs reader read) []
  · have obstructed : Obstructs ⟨fun _ => .error .malformed, id⟩ ⟨#[255]⟩ .undecodable :=
      .undecodable broken
    exact not_byValidation_of_obstructs obstructed
  · exact not_byValidation_of_obstructs (obstructs ⟨fun _ => .ok _, id⟩ rfl)

/-- The condition is met by a file that lacks a value, and by none that is undecodable. -/
theorem load_fails_by_validation_in_malformed_file :
    let malformed : Directory := ⟨"/w", some "x".toUTF8⟩
    let undecodable : Directory := ⟨"/w", some ⟨#[255]⟩⟩
    let reader := Toml.reader ⟨4300, 900, 2, 3, fun _ => 1⟩ fun _ => "Expected '='"
    (load reader [malformed] []).log = [unreadableRecord malformed "Expected '='"] ∧
    (load reader [malformed] []).result = .ok Config.default ∧
    (load reader [undecodable] []).result = .error .undecodable ∧
    ¬∀ error, (load reader [undecodable] []).result = .error error → error.ByValidation := by
  intro malformed undecodable reader
  have refused : reader.read "x" = .error .malformed := rfl
  have obstructs : Obstructs reader ⟨#[255]⟩ .undecodable := .undecodable (by decide)
  have warned :=
    (load_fails_by_validation_unless_obstructed reader [malformed] []).2 malformed _ rfl rfl
  have stopped := load_fails_by_validation_unless_obstructed reader [undecodable] []
  obtain ⟨log, result⟩ := warned.2 "x" (fromUTF8?_toUTF8 "x") refused
  refine ⟨log, result, (stopped.2 undecodable _ rfl rfl).1 _ obstructs, ?_⟩
  intro alone
  exact stopped.1.mp alone undecodable _ _ rfl rfl obstructs

end PhpLint.Settings
