import PhpLint.Outline.Printer
import PhpLint.Proofs.BundledRules
import PhpLint.Proofs.EqualTrees
import PhpLint.Proofs.Resolution

/-! What is read off equal trees. Equal trees differ in the signs of zeros at most. No analysis reads
those, so it comes to the same on both; texts do, and are the same where there are no zeros. -/

namespace PhpLint

section Walks

variable (comparing : Comparing) {β γ : Type}

/-- Readings of a node that cannot tell it from one that matches it field by field. -/
def Respects (read : Node → β) : Prop :=
  ∀ a b : Node, a.Fieldwise comparing.Alike b → read a = read b

variable {comparing}

theorem Node.Fieldwise.pos {alike : Option Node → Option Node → Prop} {a b : Node}
    (same : a.Fieldwise alike b) : a.pos = b.pos := by
  have last := same.fields
  rw [Node.fields, Node.fields] at last
  have reversed := List.forall₂_reverse_iff.mpr last
  rw [List.reverse_append, List.reverse_append] at reversed
  cases reversed with
  | cons positions _ => exact positions

namespace Respects

theorem comp {read : Node → β} (respects : Respects comparing read) (next : β → γ) :
    Respects comparing fun node => next (read node) :=
  fun a b same => congrArg next (respects a b same)

theorem kind : Respects comparing Node.kind := fun _ _ same => same.kinds

theorem heading : Respects comparing fun node => (node.kind, node.pos) := fun _ _ same =>
  Prod.ext same.kinds same.pos

/-- What is read on a walk is the same on both sides. -/
theorem map_walkStack {read : Node → β} (reads : Respects comparing read) {descend : Node → Bool}
    (descends : Respects comparing descend) {as bs : Forest}
    (alike : List.Forall₂ comparing.Alike as bs) :
    (walkStack descend as).map read = (walkStack descend bs).map read := by
  induction as using forest_size_induction generalizing bs with
  | nil =>
      cases alike
      rfl
  | missing rest ih =>
      obtain ⟨y, others, first, later, rfl⟩ := List.forall₂_cons_left_iff.mp alike
      rw [first.of_none, walkStack_none, walkStack_none, ih later]
  | present a rest below after =>
      obtain ⟨y, others, first, later, rfl⟩ := List.forall₂_cons_left_iff.mp alike
      obtain ⟨b, rfl, same⟩ := first.of_some
      have inside := below a.slots a.forestSize_slots_lt same.slots
      rw [walkStack_slots, walkStack_slots] at inside
      rw [walkStack_some, walkStack_some, descends a b same]
      simp only [List.map_cons, List.map_append, reads a b same, after later]
      split
      · rw [inside]
      · rfl

theorem map_walk {read : Node → β} (reads : Respects comparing read)
    (descend : Option (Kind → Bool)) {as bs : Forest} (alike : List.Forall₂ comparing.Alike as bs) :
    (walk as (descend.map (· ∘ Node.kind))).map read =
      (walk bs (descend.map (· ∘ Node.kind))).map read := by
  apply reads.map_walkStack _ alike
  cases descend with
  | none => exact fun _ _ _ => rfl
  | some test => exact kind.comp test

theorem filterMap_walk {read : Node → Option β} (reads : Respects comparing read) {as bs : Forest}
    (alike : List.Forall₂ comparing.Alike as bs) :
    (walk as none).filterMap read = (walk bs none).filterMap read := by
  have same := congrArg (List.filterMap id) (reads.map_walk none alike)
  rw [List.filterMap_map, List.filterMap_map] at same
  exact same

end Respects

end Walks

/-- The entries of a class that its methods are among. -/
def methodEntries (node : Node) : Forest :=
  match node.shape with
  | .classDecl _ _ _ _ methods => methods
  | _ => []

/-- What the analyses read of two nodes without going below them is the same. -/
structure SameData (a b : Node) : Prop where
  pos : a.pos = b.pos
  declaredName : Calls.declaredName a = Calls.declaredName b
  callOf : Calls.callOf a = Calls.callOf b
  isLongArray : Rules.isLongArray a = Rules.isLongArray b
  isMisnamedClass : Rules.isMisnamedClass a = Rules.isMisnamedClass b
  methodName? : Rules.methodName? a = Rules.methodName? b

section Analyses

variable {comparing : Comparing} {a b : Node}

theorem SameData.of_fieldwise (same : a.Fieldwise comparing.Alike b) : SameData a b := by
  have positions := same.pos
  obtain ⟨kinds, fields⟩ := same
  obtain ⟨p, s⟩ := a
  obtain ⟨q, t⟩ := b
  cases s <;> cases t <;> first | (cases kinds; done) | skip
  all_goals
    simp only [Node.fields, Node.ownFields, Field.text, Field.texts, Field.flag, List.cons_append,
      List.nil_append, List.forall₂_cons, Field.Matches, Datum.agrees] at fields
  case array.array long _ otherLong =>
    obtain rfl : long = otherLong := by simpa using fields.2.1
    cases long <;> constructor <;>
      simp_all [Calls.declaredName, Calls.callOf, Rules.isLongArray, Rules.isMisnamedClass,
        Rules.methodName?]
  all_goals
    constructor <;>
      simp_all [Calls.declaredName, Calls.callOf, Rules.isLongArray, Rules.isMisnamedClass,
        Rules.methodName?]

theorem SameData.about (same : SameData a b) (filename message : String) :
    Finding.about a filename message = Finding.about b filename message := by
  rw [Finding.about, Finding.about, same.pos]

theorem alike_none : comparing.Alike none none := ⟨0, rfl⟩

theorem entries_of_fieldwise (same : a.Fieldwise comparing.Alike b) :
    comparing.Alike (Rules.conditionOf a) (Rules.conditionOf b) ∧
      List.Forall₂ comparing.Alike (methodEntries a) (methodEntries b) := by
  obtain ⟨kinds, fields⟩ := same
  obtain ⟨p, s⟩ := a
  obtain ⟨q, t⟩ := b
  cases s <;> cases t <;> first | (cases kinds; done) | skip
  case classDecl.classDecl =>
    obtain ⟨-, -, -, -, methods, -⟩ := by
      simpa only [Node.fields, Node.ownFields, List.cons_append, List.forall₂_cons] using fields
    exact ⟨alike_none, methods⟩
  case ifStmt.ifStmt | elseIf.elseIf | whileStmt.whileStmt =>
    obtain ⟨condition, -⟩ := List.forall₂_cons.mp fields
    exact ⟨condition, .nil⟩
  all_goals exact ⟨alike_none, .nil⟩

namespace Rules

theorem findAssignment_congr {x y : Option Node} (alike : comparing.Alike x y)
    (filename message : String) :
    (findAssignment x).map (Finding.about · filename message) =
      (findAssignment y).map (Finding.about · filename message) := by
  have headings := Respects.heading.map_walk (some operandKinds.contains) (.cons alike .nil)
  have found := congrArg (fun headings => (headings.find? (·.1 = .assignment)).map fun heading =>
    (⟨heading.2, filename, message, none, none⟩ : Finding)) headings
  simp only [List.find?_map, Option.map_map] at found
  exact found

theorem lookAtMethods_congr (judge : List Char → Except NestingError Bool) (filename : String)
    {as bs : Forest} (alike : List.Forall₂ comparing.Alike as bs) :
    lookAtMethods judge filename (as.filterMap id) =
      lookAtMethods judge filename (bs.filterMap id) := by
  induction alike with
  | nil => rfl
  | @cons x y _ _ first _ ih =>
      cases x with
      | none =>
          obtain rfl := first.of_none
          exact ih
      | some a =>
          obtain ⟨b, rfl, fieldwise⟩ := first.of_some
          have same := SameData.of_fieldwise fieldwise
          simp only [List.filterMap_cons_some (id_eq (some _)), lookAtMethods, same.methodName?,
            same.about, ih]

/-- A look that objects to the node itself, on a ground that equal nodes share. -/
theorem guard_respects {test : Node → Bool} (tests : Respects comparing test)
    (filename message : String) :
    Respects comparing fun node => Look.full ((Option.guard test node).toList.map fun found =>
      Finding.about found filename message) := by
  intro a b fieldwise
  have same := SameData.of_fieldwise fieldwise
  simp only [Option.guard, tests a b fieldwise]
  split
  · simp only [Option.toList_some, List.map_cons, List.map_nil, same.about]
  · rfl

theorem longArray_respects (filename : String) :
    Respects comparing (longArray.onEnter filename) := by
  rw [funext (longArray_looks filename)]
  exact guard_respects (fun _ _ same => (SameData.of_fieldwise same).isLongArray) filename _

theorem className_respects (filename : String) :
    Respects comparing (className.onEnter filename) := by
  rw [funext (className_looks filename)]
  exact guard_respects (fun _ _ same => (SameData.of_fieldwise same).isMisnamedClass) filename _

theorem assignmentInCondition_respects (filename : String) :
    Respects comparing (assignmentInCondition.onEnter filename) := by
  intro a b same
  simp only [assignmentInCondition]
  rw [findAssignment_congr (entries_of_fieldwise same).1]

theorem methodNameBy_respects (judge : List Char → Except NestingError Bool) (filename : String) :
    Respects comparing ((methodNameBy judge).onEnter filename) := by
  intro a b same
  have looks (node : Node) : (methodNameBy judge).onEnter filename node =
      lookAtMethods judge filename ((methodEntries node).filterMap id) := by
    obtain ⟨pos, shape⟩ := node
    cases shape <;> rfl
  rw [looks, looks, lookAtMethods_congr judge filename (entries_of_fieldwise same).2]

/-- The bundled rules, that on method names with a limit and without. -/
def bundled (room : Nat) : List Rule :=
  [longArray, assignmentInCondition, className, methodName, methodNameIn room]

theorem bundled_respects {room : Nat} {rule : Rule} (member : rule ∈ bundled room)
    (filename : String) :
    Respects comparing (rule.onEnter filename) ∧ ∀ node, rule.onLeave filename node = [] := by
  simp only [bundled, List.mem_cons, List.not_mem_nil, or_false] at member
  rcases member with rfl | rfl | rfl | rfl | rfl
  · exact ⟨longArray_respects filename, fun _ => rfl⟩
  · exact ⟨assignmentInCondition_respects filename, fun _ => rfl⟩
  · exact ⟨className_respects filename, fun _ => rfl⟩
  · exact ⟨methodNameBy_respects _ filename, fun _ => rfl⟩
  · exact ⟨methodNameBy_respects _ filename, fun _ => rfl⟩

end Rules

variable {as bs : Forest}

theorem Inspection.check_congr {room : Nat} {inspection : Inspection}
    (bundled : inspection.rule ∈ Rules.bundled room) (filename : String)
    (alike : List.Forall₂ comparing.Alike as bs) :
    inspection.check as filename = inspection.check bs filename := by
  obtain ⟨respects, quiet⟩ := Rules.bundled_respects bundled filename
  have looks : (walk as (inspection.descendInto.map Node.isOneOf)).map
        (inspection.rule.onEnter filename) =
      (walk bs (inspection.descendInto.map Node.isOneOf)).map
        (inspection.rule.onEnter filename) := by
    have looks := respects.map_walk (inspection.descendInto.map List.contains) alike
    rw [Option.map_map] at looks
    exact looks
  rw [check_eq_reports, check_eq_reports, inspection.rule.reports_eq_chain filename quiet,
    inspection.rule.reports_eq_chain filename quiet, looks]

theorem Calls.analyze_congr (config : Config) (alike : List.Forall₂ comparing.Alike as bs) :
    analyze as config = analyze bs config := by
  have names : (walk as none).filterMap declaredName = (walk bs none).filterMap declaredName :=
    Respects.filterMap_walk (fun _ _ same => (SameData.of_fieldwise same).declaredName) alike
  have calls : (walk as none).filterMap callOf = (walk bs none).filterMap callOf :=
    Respects.filterMap_walk (fun _ _ same => (SameData.of_fieldwise same).callOf) alike
  simp only [analyze, declared_eq_insertAll, unknown_eq_filter, names, calls]

end Analyses

section Comparisons

variable {comparing : Comparing} {room : Nat}

theorem Familiar.alike {as bs : Forest} (left : Familiar as) (right : Familiar bs)
    (equal : List.Forall₂ (fun x y => comparing.slots room x y = .ok true) as bs) :
    List.Forall₂ comparing.Alike as bs := by
  induction equal with
  | nil => exact .nil
  | cons first _ ih =>
      obtain ⟨ownLeft, restLeft⟩ := (throughout_cons _ _).mp left
      obtain ⟨ownRight, restRight⟩ := (throughout_cons _ _).mp right
      rw [comparing.slots_strict room ownLeft ownRight] at first
      exact .cons ⟨room, first⟩ (ih restLeft restRight)

section Copies

variable {node : Node} (familiar : Familiar [some node])

include familiar

theorem Familiar.sees (equal : comparing.slots room (some node) (some node) = .ok true) :
    comparing.Sees room (some node) (some node) := by
  rwa [comparing.slots_strict room familiar familiar] at equal

theorem Familiar.not_nan (equal : comparing.slots room (some node) (some node) = .ok true) :
    Throughout (fun part => part.shape ≠ .floatLiteral .nan) [some node] := by
  intro part met
  rw [walk, Option.getD_none, mem_walkStack_iff_reaches] at met
  obtain ⟨root, member, steps, reached⟩ := met
  obtain rfl := Option.some.inj (List.mem_singleton.mp member)
  obtain ⟨left, other, -, seen⟩ := (familiar.sees equal).below reached
  exact seen.not_nan

theorem Familiar.steps_le (equal : comparing.slots room (some node) (some node) = .ok true)
    {steps : Nat} {part : Node} (reached : node.Reaches steps part) : steps + 6 ≤ room := by
  obtain ⟨left, other, total, seen⟩ := (familiar.sees equal).below reached
  have least := seen.six_le
  omega

theorem Familiar.copy (number : Throughout (fun part => part.shape ≠ .floatLiteral .nan) [some node]) :
    EqualUnless (node.Narrow room) (comparing.slots room (some node) (some node)) := by
  have sound := node.sound_iff.mpr ⟨familiar, number⟩
  apply comparing.slotsBy_copy
  rintro child ⟨⟩
  exact ⟨familiar.known, comparing.nodes_copy room node sound⟩

end Copies

end Comparisons

/-- In any room, comparison of trees of known kinds is symmetric, in failing too, and transitive. Copies
with a NaN in them are never found equal, and others never different: they are found equal where the
comparison has seven steps left at every node it comes to, and it fails where it has less than six left
at one. Forests that are found equal entry by entry are walked through alike, and come to the same
under every bundled rule and in the analysis of calls; without a zero in them, so do all their texts. -/
theorem equal_trees_are_interchangeable (comparing : Comparing) (room : Nat) :
    (∀ x y, Familiar [x, y] → comparing.slots room x y = comparing.slots room y x) ∧
    (∀ x y z, Familiar [x, y, z] → comparing.slots room x y = .ok true →
      comparing.slots room y z = .ok true → comparing.slots room x z = .ok true) ∧
    (∀ node : Node, Familiar [some node] →
      let copies := comparing.slots room (some node) (some node)
      ((∃ part ∈ walk [some node] none, part.shape = .floatLiteral .nan) → copies ≠ .ok true) ∧
      ((∀ part ∈ walk [some node] none, part.shape ≠ .floatLiteral .nan) →
        copies ≠ .ok false ∧
        ((∀ steps part, node.Reaches steps part → steps + 7 ≤ room) → copies = .ok true) ∧
        ((∃ steps part, node.Reaches steps part ∧ room < steps + 6) →
          ∃ error, copies = .error error))) ∧
    ∀ as bs : Forest, Familiar as → Familiar bs →
      List.Forall₂ (fun x y => comparing.slots room x y = .ok true) as bs →
      (∀ descend : Option (Kind → Bool),
        (walk as (descend.map (· ∘ Node.kind))).map (fun node => (node.kind, node.pos)) =
          (walk bs (descend.map (· ∘ Node.kind))).map fun node => (node.kind, node.pos)) ∧
      (∀ judging (inspection : Inspection), inspection.rule ∈ Rules.bundled judging → ∀ filename,
        inspection.check as filename = inspection.check bs filename) ∧
      (∀ config, Calls.analyze as config = Calls.analyze bs config) ∧
      ((∀ node ∈ walk as none, ∀ value, node.shape = .floatLiteral value → value.isZero = false) →
        ∀ limits, (walk as none).map (Node.description limits) =
            (walk bs none).map (Node.description limits) ∧
          (walk as none).map (Node.token limits) = (walk bs none).map (Node.token limits) ∧
          ∀ layout, Outline.printTree limits layout as = Outline.printTree limits layout bs ∧
            Outline.printNodes limits layout as = Outline.printNodes limits layout bs) := by
  refine ⟨?symmetric, ?transitive, ?copies, ?readings⟩
  case symmetric =>
    intro x y familiar
    obtain ⟨left, right⟩ := (throughout_cons _ _).mp familiar
    rw [comparing.slots_strict room left right, comparing.slots_strict room right left]
    exact comparing.slots_comm room x y
  case transitive =>
    intro x y z familiar first second
    obtain ⟨left, others⟩ := (throughout_cons _ _).mp familiar
    obtain ⟨middle, right⟩ := (throughout_cons _ _).mp others
    rw [comparing.slots_strict room left middle] at first
    rw [comparing.slots_strict room middle right] at second
    rw [comparing.slots_strict room left right]
    exact Comparing.Sees.trans first second
  case copies =>
    intro node familiar copies
    refine ⟨?_, ?_⟩
    · intro nan equal
      obtain ⟨part, met, literal⟩ := nan
      exact familiar.not_nan equal part met literal
    · intro number
      have outcome : EqualUnless (node.Narrow room) copies := familiar.copy number
      refine ⟨outcome.ne_false, ?_, ?_⟩
      · intro enough
        apply outcome.eq_true
        intro ⟨steps, part, reached, short⟩
        exact absurd (enough steps part reached) (Nat.not_le.mpr short)
      · intro ⟨steps, part, reached, short⟩
        apply outcome.exists_error
        intro equal
        exact absurd (familiar.steps_le equal reached) (Nat.not_le.mpr short)
  case readings =>
    intro as bs left right equal
    have alike := left.alike right equal
    refine ⟨fun descend => Respects.heading.map_walk descend alike,
      fun judging inspection bundled filename => Inspection.check_congr bundled filename alike,
      fun config => Calls.analyze_congr config alike, ?_⟩
    intro nonzero
    obtain rfl := eq_of_alike alike nonzero
    exact fun _ => ⟨rfl, rfl, fun _ => ⟨rfl, rfl⟩⟩

/-- Assignments in one another, on the left. -/
def assignments : Nat → Node
  | 0 => ⟨.unknown, .variableRef "x"⟩
  | count + 1 =>
    ⟨.unknown, .assignment (some (assignments count)) (some ⟨.unknown, .variableRef "x"⟩)⟩

theorem throughout_assignments {holds : Node → Prop} (leaf : holds ⟨.unknown, .variableRef "x"⟩)
    (inner : ∀ left right, holds ⟨.unknown, .assignment left right⟩) (count : Nat) :
    Throughout holds [some (assignments count)] := by
  have single : Throughout holds [some ⟨.unknown, .variableRef "x"⟩] :=
    (throughout_some _).mpr ⟨leaf, (throughout_iff _).mpr fun entry member => by cases member⟩
  induction count with
  | zero => exact single
  | succ count ih =>
      rw [throughout_some]
      exact ⟨inner _ _, (throughout_cons _ _).mpr ⟨ih, single⟩⟩

theorem assignments_reaches (count : Nat) :
    (assignments count).Reaches (3 * count) (assignments 0) := by
  induction count with
  | zero => exact .here _
  | succ count ih => exact .slot (List.mem_cons_self ..) ih

theorem assignments_familiar (count : Nat) : Familiar [some (assignments count)] := by
  apply throughout_assignments
  · rfl
  · intros
    rfl

theorem assignments_numeric (count : Nat) :
    Throughout (fun part => part.shape ≠ .floatLiteral .nan) [some (assignments count)] := by
  apply throughout_assignments <;> simp

/-- The comparison to which foreign nodes differ, and all small integers are shared. -/
def Comparing.plain : Comparing :=
  ⟨fun room _ _ => differ room, fun value => -5 ≤ value && value ≤ 256⟩

/-- Copies without a NaN that cannot be compared. -/
theorem deep_copies_are_not_compared :
    Familiar [some (assignments 2500)] ∧
    (∀ part ∈ walk [some (assignments 2500)] none, part.shape ≠ .floatLiteral .nan) ∧
    ∃ error, Comparing.plain.slots 997 (some (assignments 2500)) (some (assignments 2500)) =
      .error error := by
  have familiar := assignments_familiar 2500
  have number := assignments_numeric 2500
  refine ⟨familiar, number, ?_⟩
  rcases familiar.copy number with equal | ⟨-, stopped⟩
  · have steps : 3 * 2500 + 6 ≤ 997 := familiar.steps_le equal (assignments_reaches 2500)
    omega
  · exact stopped

/-- A call of an undeclared function with a number. -/
def callOn (value : Binary64) : Node :=
  ⟨⟨1, 0, 0⟩, .functionCall "f" [some ⟨⟨1, 2, 2⟩, .floatLiteral value⟩]⟩

theorem walk_callOn (value : Binary64) (rest : Forest) :
    walk (some (callOn value) :: rest) none =
      callOn value :: ⟨⟨1, 2, 2⟩, .floatLiteral value⟩ :: walk rest none := by
  simp [walk, callOn, Node.children]

theorem callOn_familiar (value : Binary64) (rest : Forest) (familiar : Familiar rest) :
    Familiar (some (callOn value) :: rest) := by
  intro node member
  rw [walk_callOn] at member
  rcases List.mem_cons.mp member with rfl | member
  · rfl
  · rcases List.mem_cons.mp member with rfl | member
    · rfl
    · exact familiar node member

/-- Calls on the two zeros are equal and analysed alike, but described differently; calls on one and
the same number are printed alike. A call on a NaN is not equal to its copy. -/
theorem signed_zeros_are_interchangeable :
    let plus := callOn (.zero false)
    let minus := callOn (.zero true)
    let one := callOn (.ofRatio false 1 1)
    let two := callOn (.ofRatio false 2 2)
    let inspection := Inspection.ofRule Rules.longArray
    let slots := Comparing.plain.slots 997
    (slots (some plus) (some minus) = .ok true ∧ slots (some minus) (some plus) = .ok true ∧
      slots (some plus) (some plus) = .ok true) ∧
    (slots (some (callOn .nan)) (some (callOn .nan)) ≠ .ok true ∧
      ∃ error, slots (some (assignments 2500)) (some (assignments 2500)) = .error error) ∧
    (inspection.check [some plus, none] "a.php" = inspection.check [some minus, none] "a.php" ∧
      Calls.analyze [some plus, none] .default = Calls.analyze [some minus, none] .default ∧
      (walk [some plus, none] none).map (Node.description .endless) ≠
        (walk [some minus, none] none).map (Node.description .endless)) ∧
    (slots (some one) (some two) = .ok true ∧
      (∀ node ∈ walk [some one, none] none, ∀ value, node.shape = .floatLiteral value →
        value.isZero = false) ∧
      Outline.printTree .endless .default [some one, none] =
        Outline.printTree .endless .default [some two, none]) := by
  intro plus minus one two inspection slots
  obtain ⟨symmetric, transitive, copies, readings⟩ :=
    equal_trees_are_interchangeable .plain 997
  have nothing : Familiar [] := by simp [Familiar, Throughout, walk]
  have empty : Familiar [none] := by simp [Familiar, Throughout, walk]
  have single (value : Binary64) : Familiar [some (callOn value)] := callOn_familiar value [] nothing
  have padded (value : Binary64) : Familiar [some (callOn value), none] :=
    callOn_familiar value [none] empty
  have zeros : slots (some plus) (some minus) = .ok true := by rfl
  have swapped : slots (some minus) (some plus) = .ok true := by
    rw [← zeros]
    exact symmetric _ _ (callOn_familiar _ _ (single _))
  have ones : slots (some one) (some two) = .ok true := by rfl
  have nonzero : ∀ node ∈ walk [some one, none] none, ∀ value, node.shape = .floatLiteral value →
      value.isZero = false := by
    intro node member value literal
    rw [walk_callOn] at member
    rcases List.mem_cons.mp member with rfl | member
    · cases literal
    · rcases List.mem_cons.mp member with rfl | member
      · cases literal
        decide
      · simp [walk] at member
  obtain ⟨-, checked, analysed, -⟩ := readings [some plus, none] [some minus, none] (padded _)
    (padded _) (.cons zeros (.cons rfl .nil))
  obtain ⟨-, -, -, texts⟩ := readings [some one, none] [some two, none] (padded _) (padded _)
    (.cons ones (.cons rfl .nil))
  refine ⟨⟨zeros, swapped, ?_⟩, ⟨?_, ?_⟩, ⟨?_, analysed _, ?_⟩, ones, nonzero,
    ((texts nonzero .endless).2.2 _).1⟩
  · exact transitive _ _ _ (callOn_familiar _ _ (callOn_familiar _ _ (single _))) zeros swapped
  · apply (copies _ (single _)).1
    rw [walk_callOn]
    exact ⟨_, List.mem_cons_of_mem _ List.mem_cons_self, rfl⟩
  · exact ((copies _ (assignments_familiar 2500)).2 (assignments_numeric 2500)).2.2
      ⟨_, _, assignments_reaches 2500, by decide⟩
  · exact checked 0 inspection (List.mem_cons_self ..) _
  · rw [walk_callOn, walk_callOn]
    decide

end PhpLint
