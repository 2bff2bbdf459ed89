import Mathlib.Data.List.Forall2
import Mathlib.Data.List.TakeWhile
import Mathlib.Tactic.Choose
import Mathlib.Tactic.Tauto
import PhpLint.Proofs.Loading

/-! Which raw values are accepted as a configuration. Every field is judged by its own value, whatever
the others hold. Names lose the blanks around them and nothing else, so that what was accepted is
accepted again as it stands. -/

namespace PhpLint

namespace Text

/-- No blank stands at either end. -/
def Bare (text : List Char) : Prop :=
  (∀ c ∈ text.head?, isBlank c = false) ∧ ∀ c ∈ text.getLast?, isBlank c = false

/-- A name is what is left of a text without the blanks around it. -/
def Trims (text name : List Char) : Prop :=
  Bare name ∧ ∃ before after, text = before ++ name ++ after ∧
    (∀ c ∈ before, isBlank c = true) ∧ ∀ c ∈ after, isBlank c = true

theorem Bare.reverse {text : List Char} (bare : Bare text) : Bare text.reverse := by
  simpa [Bare, and_comm] using bare

theorem Bare.dropWhile_append {name : List Char} (bare : Bare name) {after : List Char}
    (blank : ∀ c ∈ after, isBlank c = true) :
    (name ++ after).dropWhile isBlank = if name = [] then [] else name ++ after := by
  cases name with
  | nil => simpa using blank
  | cons c rest =>
      have first : isBlank c = false := bare.1 c rfl
      simp [first]

theorem Bare.trims_self {name : List Char} (bare : Bare name) : Trims name name :=
  ⟨bare, [], [], by simp, by simp, by simp⟩

theorem stripChars_of_trims {text name : List Char} (trims : Trims text name) :
    stripChars text = name := by
  obtain ⟨bare, before, after, rfl, blankBefore, blankAfter⟩ := trims
  have noBlank : ∀ c ∈ ([] : List Char), isBlank c = true := by simp
  rw [stripChars, List.append_assoc, List.dropWhile_append_of_pos blankBefore,
    bare.dropWhile_append blankAfter]
  by_cases empty : name = []
  · simp [empty]
  · have last := bare.reverse.dropWhile_append noBlank
    rw [if_neg empty, List.reverse_append,
      List.dropWhile_append_of_pos (by simpa using blankAfter)]
    simpa [empty] using congrArg List.reverse last

theorem head?_dropWhile_isBlank (text : List Char) :
    ∀ c ∈ (text.dropWhile isBlank).head?, isBlank c = false := by
  intro c first
  have stopped := List.head?_dropWhile_not isBlank text
  rw [Option.mem_def.mp first] at stopped
  exact stopped

theorem trims_stripChars (text : List Char) : Trims text (stripChars text) := by
  have front : text.takeWhile isBlank ++ text.dropWhile isBlank = text :=
    List.takeWhile_append_dropWhile
  have first := head?_dropWhile_isBlank text
  have back : stripChars text ++ ((text.dropWhile isBlank).reverse.takeWhile isBlank).reverse =
      text.dropWhile isBlank := by
    rw [stripChars, ← List.reverse_append, List.takeWhile_append_dropWhile, List.reverse_reverse]
  refine ⟨⟨?_, ?_⟩, text.takeWhile isBlank,
    ((text.dropWhile isBlank).reverse.takeWhile isBlank).reverse, ?_,
    fun c => List.mem_takeWhile_imp, ?_⟩
  · intro c held
    apply first c
    rw [← back, List.head?_append, Option.mem_def.mp held]
    rfl
  · rw [stripChars, List.getLast?_reverse]
    exact head?_dropWhile_isBlank _
  · rw [List.append_assoc, back, front]
  · intro c member
    exact List.mem_takeWhile_imp (List.mem_reverse.mp member)

theorem trims_iff (text name : List Char) : Trims text name ↔ stripChars text = name := by
  constructor
  · exact stripChars_of_trims
  · rintro rfl
    exact trims_stripChars text

theorem stripChars_eq_nil_iff (text : List Char) :
    stripChars text = [] ↔ ∀ c ∈ text, isBlank c = true := by
  rw [← trims_iff]
  constructor
  · rintro ⟨-, before, after, rfl, blankBefore, blankAfter⟩ c member
    rcases List.mem_append.mp member with inFront | behind
    · exact blankBefore c (by simpa using inFront)
    · exact blankAfter c behind
  · intro blank
    exact ⟨by simp [Bare], text, [], by simp, blank, by simp⟩

end Text

namespace Settings

/-- The words that are read as a boolean. -/
def booleanWords : Bool → List String
  | false => ["0", "off", "f", "false", "n", "no"]
  | true => ["1", "on", "t", "true", "y", "yes"]

/-- A text is a word with some of its letters made capitals. -/
def Spells (text word : String) : Prop :=
  List.Forall₂ (fun c letter => c = letter ∨ c = letter.toUpper) text.toList word.toList

/-- The booleans that values are taken for. -/
inductive StandsFor : Value → Bool → Prop
  | boolean (flag : Bool) : StandsFor (.boolean flag) flag
  | integer (flag : Bool) : StandsFor (.integer flag.toInt) flag
  | float {number : Binary64} (flag : Bool) (whole : number.toInt? = some flag.toInt) :
      StandsFor (.float number) flag
  | word {text word : String} (flag : Bool) (listed : word ∈ booleanWords flag)
      (spelled : Spells text word) : StandsFor (.text text) flag

theorem toNat_toLower (c : Char) :
    c.toLower.toNat = if 65 ≤ c.toNat ∧ c.toNat ≤ 90 then c.toNat + 32 else c.toNat := by
  by_cases capital : 65 ≤ c.toNat ∧ c.toNat ≤ 90
  · have lowered : c.toLower = ⟨c.val + ('a'.val - 'A'.val), _⟩ := dif_pos capital
    have step : ('a'.val - 'A'.val).toNat = 32 := rfl
    rw [if_pos capital, lowered, Char.toNat, UInt32.toNat_add, step, Char.toNat_val]
    omega
  · have kept : c.toLower = c := dif_neg capital
    rw [kept, if_neg capital]

theorem toNat_toUpper (c : Char) :
    c.toUpper.toNat = if 97 ≤ c.toNat ∧ c.toNat ≤ 122 then c.toNat - 32 else c.toNat := by
  by_cases small : 97 ≤ c.toNat ∧ c.toNat ≤ 122
  · have within : 'a'.val ≤ c.val ∧ c.val ≤ 'z'.val := small
    have raised : c.toUpper = ⟨c.val + ('A'.val - 'a'.val), _⟩ := dif_pos within
    have step : ('A'.val - 'a'.val).toNat = 2 ^ 32 - 32 := rfl
    rw [if_pos small, raised, Char.toNat, UInt32.toNat_add, step, Char.toNat_val]
    omega
  · have kept : c.toUpper = c := dif_neg small
    rw [kept, if_neg small]

theorem toLower_eq_iff {letter : Char} (small : letter.toLower = letter) (c : Char) :
    c.toLower = letter ↔ c = letter ∨ c = letter.toUpper := by
  have lowered := toNat_toLower letter
  rw [small] at lowered
  rw [← Char.toNat_inj, ← Char.toNat_inj, ← Char.toNat_inj, toNat_toLower, toNat_toUpper]
  split at lowered
  · omega
  · split <;> split <;> omega

theorem spells_iff {word : String} (small : ∀ letter ∈ word.toList, letter.toLower = letter)
    (text : String) :
    Spells text word ↔ String.ofList (text.toList.map Char.toLower) = word := by
  rw [← String.toList_inj, String.toList_ofList, Spells]
  generalize text.toList = cs
  generalize word.toList = letters at small
  induction letters generalizing cs with
  | nil => simp
  | cons letter letters ih =>
      obtain ⟨first, others⟩ := List.forall_mem_cons.mp small
      cases cs with
      | nil => simp
      | cons c cs => simp [toLower_eq_iff first, ih cs others]

theorem booleanWords_small (flag : Bool) :
    ∀ word ∈ booleanWords flag, ∀ letter ∈ word.toList, letter.toLower = letter := by
  have checked : (booleanWords flag).all (fun word =>
      word.toList.all fun letter => letter.toLower == letter) = true := by
    cases flag <;> rfl
  simpa using checked

theorem booleanWords_disjoint {word : String} (listed : word ∈ booleanWords true) :
    word ∉ booleanWords false := by
  have apart : ∀ word ∈ booleanWords true, word ∉ booleanWords false := by decide
  exact apart word listed

theorem booleanOfText_eq_ok_iff (text : String) (flag : Bool) :
    booleanOfText text = .ok flag ↔ ∃ word ∈ booleanWords flag, Spells text word := by
  have listed : (∃ word ∈ booleanWords flag, Spells text word) ↔
      String.ofList (text.toList.map Char.toLower) ∈ booleanWords flag := by
    constructor
    · rintro ⟨word, member, spelled⟩
      rwa [(spells_iff (booleanWords_small flag word member) text).mp spelled]
    · intro member
      exact ⟨_, member, (spells_iff (booleanWords_small flag _ member) text).mpr rfl⟩
  have read : booleanOfText text =
      if String.ofList (text.toList.map Char.toLower) ∈ booleanWords false then .ok false
      else if String.ofList (text.toList.map Char.toLower) ∈ booleanWords true then .ok true
      else .error .unreadableBoolean := rfl
  rw [listed, read]
  generalize String.ofList (text.toList.map Char.toLower) = word
  by_cases no : word ∈ booleanWords false
  · have notYes : word ∉ booleanWords true := fun yes => booleanWords_disjoint yes no
    cases flag <;> simp [no, notYes]
  · by_cases yes : word ∈ booleanWords true <;> cases flag <;> simp [no, yes]

theorem booleanOfInt_eq_ok_iff (value : Int) (flag : Bool) :
    booleanOfInt value = .ok flag ↔ value = flag.toInt := by
  unfold booleanOfInt
  by_cases zero : value = 0
  · cases flag <;> simp [zero, Bool.toInt]
  · by_cases one : value = 1 <;> cases flag <;> simp [zero, one, Bool.toInt]

theorem readBoolean_eq_ok_iff (value : Value) (flag : Bool) :
    readBoolean value = .ok flag ↔ StandsFor value flag := by
  have least : -wordBound < flag.toInt := by cases flag <;> decide
  have most : flag.toInt < wordBound := by cases flag <;> decide
  constructor
  · intro read
    cases value with
    | boolean given =>
        cases read
        exact .boolean flag
    | integer given =>
        simp only [readBoolean] at read
        split at read
        · obtain rfl := (booleanOfInt_eq_ok_iff given flag).mp read
          exact .integer flag
        · cases read
    | float given =>
        simp only [readBoolean] at read
        split at read
        · cases read
        · split at read
          · obtain rfl := (booleanOfInt_eq_ok_iff _ flag).mp read
            exact .float flag ‹_›
          · cases read
    | text given =>
        obtain ⟨word, listed, spelled⟩ := (booleanOfText_eq_ok_iff given flag).mp read
        exact .word flag listed spelled
    | _ => cases read
  · rintro (_ | _ | ⟨_, whole⟩ | ⟨_, listed, spelled⟩)
    · rfl
    · simp [readBoolean, isWord, Int.le_of_lt least, most, booleanOfInt_eq_ok_iff]
    · simp [readBoolean, whole, least, most, booleanOfInt_eq_ok_iff]
    · exact (booleanOfText_eq_ok_iff _ flag).mpr ⟨_, listed, spelled⟩

theorem readText_eq_ok_iff (value : Value) (text : String) :
    readText value = .ok text ↔ value = .text text := by
  cases value <;> simp [readText]

theorem readTexts_eq_ok_iff (index : Nat) (items : List Value) (texts : List String) :
    readTexts index items = .ok texts ↔ items = texts.map .text := by
  induction items generalizing index texts with
  | nil => cases texts <;> simp [readTexts]
  | cons item rest ih =>
      cases texts with
      | nil =>
          rw [readTexts]
          split <;> simp
      | cons text texts =>
          rw [List.map_cons, List.cons.injEq, ← readText_eq_ok_iff, ← ih (index + 1), readTexts]
          clear ih
          split <;> simp_all

/-- A name is a text without the blanks around it, with something left of it. -/
def NameOf (text name : String) : Prop := name ≠ "" ∧ Text.Trims text.toList name.toList

theorem nameOf_iff (text name : String) : NameOf text name ↔ name ≠ "" ∧ Text.strip text = name := by
  rw [NameOf, Text.trims_iff, Text.strip, ← String.toList_inj, String.toList_ofList]

theorem forall₂_nameOf_iff (texts names : List String) :
    List.Forall₂ NameOf texts names ↔ texts.map Text.strip = names ∧ "" ∉ names := by
  induction texts generalizing names with
  | nil => cases names <;> simp
  | cons text texts ih =>
      cases names with
      | nil => simp
      | cons name names =>
          rw [List.forall₂_cons, ih, nameOf_iff]
          simp only [List.map_cons, List.cons.injEq, List.mem_cons, not_or, ne_comm]
          tauto

theorem readNames_eq_ok_iff (value : Value) (names : List String) :
    readNames value = .ok names ↔
      ∃ texts : List String, value = .list (texts.map .text) ∧ List.Forall₂ NameOf texts names := by
  simp only [forall₂_nameOf_iff]
  constructor
  · intro read
    cases value with
    | list items =>
        simp only [readNames] at read
        split at read
        · cases read
        · rename_i texts found
          split at read
          · cases read
          · cases read
            exact ⟨texts, congrArg _ ((readTexts_eq_ok_iff 0 items texts).mp found), rfl, ‹_›⟩
    | _ => cases read
  · rintro ⟨texts, rfl, rfl, filled⟩
    have found : readTexts 0 (texts.map .text) = .ok texts := (readTexts_eq_ok_iff 0 _ texts).mpr rfl
    simp only [readNames, found, if_neg filled]

theorem single_eq_ok_iff {α : Type} (field : Field) (read : Value → Except Fault α) (value : Value)
    (result : α) : single field read value = .ok result ↔ read value = .ok result := by
  unfold single
  split <;> simp_all

/-- What a field is given for a configuration to have what it has there. -/
def Field.Yields (config : Config) (value : Value) : Field → Prop
  | .builtinFunctions =>
    ∃ texts : List String, value = .list (texts.map .text) ∧
      List.Forall₂ NameOf texts config.builtinFunctions
  | .caseSensitiveCalls => StandsFor value config.caseSensitiveCalls
  | .indentUnit => value = .text config.indentUnit
  | .expandTree => StandsFor value config.expandTree

/-- The values that a field may be given, whatever the other fields are. -/
def Field.Accepts (value : Value) : Field → Prop
  | .builtinFunctions =>
    ∃ texts : List String, value = .list (texts.map .text) ∧
      ∀ text ∈ texts, ∃ c ∈ text.toList, Text.isBlank c = false
  | .caseSensitiveCalls | .expandTree => ∃ flag, StandsFor value flag
  | .indentUnit => ∃ text, value = .text text

theorem Field.forall_iff {motive : Field → Prop} :
    (∀ field, motive field) ↔ motive .builtinFunctions ∧ motive .caseSensitiveCalls ∧
      motive .indentUnit ∧ motive .expandTree := by
  constructor
  · intro all
    exact ⟨all _, all _, all _, all _⟩
  · rintro ⟨names, sensitive, unit, expand⟩ field
    cases field <;> assumption

/-- A configuration is made of what the fields are read as, if all of them can be read. -/
theorem validate_eq_ok_iff_fieldOr (table : Table) (config : Config) :
    Config.validate table = .ok config ↔
      fieldOr table .builtinFunctions Config.default.builtinFunctions readNames =
        .ok config.builtinFunctions ∧
      fieldOr table .caseSensitiveCalls Config.default.caseSensitiveCalls
        (single .caseSensitiveCalls readBoolean) = .ok config.caseSensitiveCalls ∧
      fieldOr table .indentUnit Config.default.indentUnit (single .indentUnit readText) =
        .ok config.indentUnit ∧
      fieldOr table .expandTree Config.default.expandTree (single .expandTree readBoolean) =
        .ok config.expandTree := by
  obtain ⟨names, sensitive, unit, expand⟩ := config
  simp only [Config.validate]
  split
  · simp_all
  · rename_i failed
    constructor
    · rintro ⟨⟩
    · rintro ⟨named, cased, united, expanded⟩
      exact absurd expanded (failed _ _ _ _ named cased united)

theorem validate_eq_ok_iff (table : Table) (config : Config) :
    Config.validate table = .ok config ↔ ∀ field, Field.Yields config (valueOf table field) field := by
  simp only [validate_eq_ok_iff_fieldOr, Field.forall_iff, fieldOr_eq_read_valueOf, Field.Yields,
    single_eq_ok_iff, readNames_eq_ok_iff, readBoolean_eq_ok_iff, readText_eq_ok_iff]

theorem exists_forall_yields_iff (values : Field → Value) :
    (∃ config, ∀ field, Field.Yields config (values field) field) ↔
      ∀ field, ∃ config, Field.Yields config (values field) field := by
  constructor
  · rintro ⟨config, yields⟩ field
    exact ⟨config, yields field⟩
  · -- the parts of a configuration do not hang together
    intro each
    choose config yields using each
    refine ⟨⟨(config .builtinFunctions).builtinFunctions,
      (config .caseSensitiveCalls).caseSensitiveCalls, (config .indentUnit).indentUnit,
      (config .expandTree).expandTree⟩, ?_⟩
    intro field
    have own := yields field
    cases field <;> exact own

theorem strip_ne_empty_iff (text : String) :
    Text.strip text ≠ "" ↔ ∃ c ∈ text.toList, Text.isBlank c = false := by
  rw [Text.strip, ne_eq, ← String.toList_eq_nil_iff, String.toList_ofList,
    Text.stripChars_eq_nil_iff]
  simp

theorem Field.accepts_iff (value : Value) (field : Field) :
    Field.Accepts value field ↔ ∃ config, Field.Yields config value field := by
  cases field with
  | builtinFunctions =>
      have left (texts : List String) : (∀ text ∈ texts, ∃ c ∈ text.toList, Text.isBlank c = false) ↔
          "" ∉ texts.map Text.strip := by
        simp [← strip_ne_empty_iff]
      constructor
      · rintro ⟨texts, rfl, filled⟩
        refine ⟨{ Config.default with builtinFunctions := texts.map Text.strip }, texts, rfl, ?_⟩
        exact (forall₂_nameOf_iff _ _).mpr ⟨rfl, (left texts).mp filled⟩
      · rintro ⟨config, texts, rfl, named⟩
        obtain ⟨names, filled⟩ := (forall₂_nameOf_iff _ _).mp named
        exact ⟨texts, rfl, (left texts).mpr (names ▸ filled)⟩
  | caseSensitiveCalls =>
      constructor
      · rintro ⟨flag, stands⟩
        exact ⟨{ Config.default with caseSensitiveCalls := flag }, stands⟩
      · rintro ⟨config, stands⟩
        exact ⟨_, stands⟩
  | indentUnit =>
      constructor
      · rintro ⟨text, rfl⟩
        exact ⟨{ Config.default with indentUnit := text }, rfl⟩
      · rintro ⟨config, given⟩
        exact ⟨_, given⟩
  | expandTree =>
      constructor
      · rintro ⟨flag, stands⟩
        exact ⟨{ Config.default with expandTree := flag }, stands⟩
      · rintro ⟨config, stands⟩
        exact ⟨_, stands⟩

theorem yields_defaultValue (field : Field) :
    Field.Yields Config.default (defaultValue field) field := by
  cases field with
  | builtinFunctions => exact ⟨[], rfl, .nil⟩
  | caseSensitiveCalls => exact .boolean _
  | indentUnit => rfl
  | expandTree => exact .boolean _

/-- A field that nobody gives is accepted as it stands. -/
theorem accepts_valueOf_iff (table : Table) (field : Field) :
    Field.Accepts (valueOf table field) field ↔
      ∀ value, table.lookup field.key = some value → Field.Accepts value field := by
  rw [valueOf]
  cases table.lookup field.key with
  | none => simpa using (Field.accepts_iff _ field).mpr ⟨_, yields_defaultValue field⟩
  | some value => simp

/-- The four values that a configuration consists of. -/
def values (config : Config) : Table :=
  [("builtin_functions", .list (config.builtinFunctions.map .text)),
    ("case_sensitive_calls", .boolean config.caseSensitiveCalls),
    ("indent_unit", .text config.indentUnit), ("expand_tree", .boolean config.expandTree)]

theorem yields_values {config : Config}
    (named : ∀ name ∈ config.builtinFunctions, NameOf name name) (field : Field) :
    Field.Yields config (valueOf (values config) field) field := by
  cases field with
  | builtinFunctions => exact ⟨config.builtinFunctions, rfl, List.forall₂_same.mpr named⟩
  | caseSensitiveCalls => exact .boolean _
  | indentUnit => rfl
  | expandTree => exact .boolean _

theorem NameOf.again {text name : String} (named : NameOf text name) : NameOf name name :=
  ⟨named.1, named.2.1.trims_self⟩

theorem Field.Yields.names {config : Config} {value : Value}
    (yields : Field.Yields config value .builtinFunctions) :
    ∀ name ∈ config.builtinFunctions, NameOf name name := by
  obtain ⟨texts, -, named⟩ := yields
  obtain ⟨stripped, filled⟩ := (forall₂_nameOf_iff _ _).mp named
  intro name member
  obtain ⟨text, -, rfl⟩ := List.mem_map.mp (stripped ▸ member)
  have left : Text.strip text ≠ "" := fun empty => filled (empty ▸ member)
  exact NameOf.again ((nameOf_iff text _).mpr ⟨left, rfl⟩)

/-- A table is accepted exactly if every field it gives has a value that is accepted on its own. The
configuration has each field as it is given or else by default: booleans and texts as they are read,
and the names in their order, one for each text and freed of the blanks around it. The values that
it consists of are accepted once more, and give it again. -/
theorem validate_judges_fields_apart (table : Table) :
    ((∃ config, Config.validate table = .ok config) ↔
      ∀ field value, table.lookup (Field.key field) = some value → Field.Accepts value field) ∧
    ∀ config, Config.validate table = .ok config →
      (∀ field, Field.Yields config (valueOf table field) field) ∧
      (∀ name ∈ config.builtinFunctions, name ≠ "" ∧ Text.Bare name.toList) ∧
      Config.validate (values config) = .ok config := by
  constructor
  · simp only [validate_eq_ok_iff, exists_forall_yields_iff, ← Field.accepts_iff, accepts_valueOf_iff]
  · intro config valid
    have yields := (validate_eq_ok_iff table config).mp valid
    have names := (yields .builtinFunctions).names
    refine ⟨yields, ?_, (validate_eq_ok_iff _ config).mpr (yields_values names)⟩
    intro name member
    exact ⟨(names name member).1, (names name member).2.1⟩

/-- Names with blanks around them and one that is given twice, a word and a number for booleans, and
a key that names no field. A number that stands for no boolean spoils the table. -/
theorem validate_judges_mixed_fields_apart :
    let table : Table :=
      [("builtin_functions", .list [.text "\u3000sprintf\t", .text "printf", .text "printf"]),
        ("case_sensitive_calls", .text "oFF"),
        ("expand_tree", .float (.finite false 4503599627370496 (-52))), ("colour", .null)]
    let config : Config := ⟨["sprintf", "printf", "printf"], false, "  ", true⟩
    Config.validate table = .ok config ∧ Config.validate (values config) = .ok config ∧
      ¬∃ other, Config.validate (("expand_tree", .integer 2) :: table) = .ok other := by
  intro table config
  have valid : Config.validate table = .ok config := rfl
  refine ⟨valid, ((validate_judges_fields_apart table).2 config valid).2.2, ?_⟩
  intro accepted
  obtain ⟨flag, stands⟩ :=
    (validate_judges_fields_apart _).1.mp accepted .expandTree (.integer 2) rfl
  cases (readBoolean_eq_ok_iff _ flag).mpr stands

end Settings

end PhpLint
