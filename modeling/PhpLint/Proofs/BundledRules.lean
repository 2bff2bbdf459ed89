import Mathlib.Data.List.Basic
import Mathlib.Data.List.TakeWhile
import PhpLint.Proofs.Checks
import PhpLint.Proofs.MethodNames
import PhpLint.Rules.Bundled

/-! What the bundled rules report. Three of them come to one query over the walk. The rule on method
names does so too, up to the first name that cannot be judged in the room there is. -/

namespace PhpLint

/-- A rule that objects to at most one node for each node it looks at. -/
theorem Rule.reports_eq_filterMap (rule : Rule) (filename message : String)
    (find : Node → Option Node) (quiet : ∀ node, rule.onLeave filename node = [])
    (looks : ∀ node, rule.onEnter filename node =
      .full ((find node).toList.map fun found => Finding.about found filename message))
    (descendInto : Option (List Kind)) (forest : Forest) :
    rule.reports descendInto forest filename =
      (((walk forest (descendInto.map Node.isOneOf)).filterMap find).map fun found =>
        rule.issue (.about found filename message), none) := by
  rw [rule.reports_eq_chain filename quiet, funext looks, Look.chain_map_full,
    List.filterMap_eq_flatMap_toList]
  simp [Look.full, List.map_flatMap, Function.comp_def]

namespace Rules

def isLongArray (node : Node) : Bool :=
  match node.shape with
  | .array _ true => true
  | _ => false

theorem longArray_looks (filename : String) (node : Node) :
    longArray.onEnter filename node = .full ((Option.guard isLongArray node).toList.map fun found =>
      .about found filename ("Usage of long array syntax (array(...)) is disallowed; " ++
        "use short syntax ([...]) instead.")) := by
  obtain ⟨pos, shape⟩ := node
  cases shape with
  | array elements long => cases long <;> rfl
  | _ => rfl

def isMisnamedClass (node : Node) : Bool :=
  match node.shape with
  | .classDecl name _ _ _ _ => name ≠ Text.pascalCase name
  | _ => false

theorem className_looks (filename : String) (node : Node) :
    className.onEnter filename node =
      .full ((Option.guard isMisnamedClass node).toList.map fun found =>
        .about found filename "Class name should be PascalCase") := by
  obtain ⟨pos, shape⟩ := node
  cases shape with
  | classDecl name parent interfaces properties methods =>
      by_cases same : name = Text.pascalCase name
      · simp [className, isMisnamedClass, Option.guard, ← same]
      · simp [className, isMisnamedClass, Option.guard, same]
  | _ => rfl

theorem assignmentInCondition_looks (filename : String) (node : Node) :
    assignmentInCondition.onEnter filename node =
      .full ((findAssignment (conditionOf node)).toList.map fun found =>
        .about found filename "Assignment in condition") := by
  simp only [assignmentInCondition]
  cases findAssignment (conditionOf node) <;> rfl

theorem findAssignment_none : findAssignment none = none := by
  simp [findAssignment, walk]

/-- Nodes without a condition of their own have nothing to be searched. -/
theorem findAssignment_conditionOf (node : Node) :
    (if node.isOneOf [.ifStmt, .elseIf, .whileStmt] then findAssignment (conditionOf node)
      else none) = findAssignment (conditionOf node) := by
  obtain ⟨pos, shape⟩ := node
  cases shape with
  | ifStmt | elseIf | whileStmt => rfl
  | _ => exact findAssignment_none.symm

/-- The methods of a class, being the function definitions directly among its members. -/
def methodsOf (node : Node) : List (Node × List Char) :=
  match node.shape with
  | .classDecl _ _ _ _ methods =>
    (methods.filterMap id).filterMap fun member => (methodName? member).map (member, ·)
  | _ => []

/-- What is found at one method. -/
def lookAtMethod (judge : List Char → Except NestingError Bool) (filename : String)
    (method : Node × List Char) : Look :=
  match judge method.2 with
  | .error error => ⟨[], some error⟩
  | .ok true => .full []
  | .ok false => .full [.about method.1 filename "Method name should be camelCase"]

theorem lookAtMethods_eq_chain (judge : List Char → Except NestingError Bool) (filename : String)
    (members : List Node) :
    lookAtMethods judge filename members =
      .chain ((members.filterMap fun member => (methodName? member).map (member, ·)).map
        (lookAtMethod judge filename)) := by
  induction members with
  | nil => rfl
  | cons member rest ih =>
      rw [lookAtMethods, ih]
      cases named : methodName? member with
      | none => simp [named]
      | some name =>
          rw [List.filterMap_cons_some (by rw [named]; rfl), List.map_cons, Look.chain_cons]
          simp only [Option.map_some, lookAtMethod]
          rcases judge name with error | accepted
          · rfl
          · cases accepted <;> rfl

theorem methodNameBy_looks (judge : List Char → Except NestingError Bool) (filename : String)
    (node : Node) :
    (methodNameBy judge).onEnter filename node =
      .chain ((methodsOf node).map (lookAtMethod judge filename)) := by
  obtain ⟨pos, shape⟩ := node
  cases shape with
  | classDecl name parent interfaces properties methods =>
      exact lookAtMethods_eq_chain judge filename (methods.filterMap id)
  | _ => rfl

/-- Whether a name can be judged in some room. -/
def fits (room : Nat) (method : Node × List Char) : Bool := Text.judgingSteps method.2 ≤ room

/-- The methods are judged in turn, and none after one whose name does not fit. -/
theorem chain_lookAtMethod (room : Nat) (filename : String) (methods : List (Node × List Char)) :
    Look.chain (methods.map (lookAtMethod (Text.isMethodNameIn room) filename)) =
      ⟨((methods.takeWhile (fits room)).filter fun method => !Text.isMethodName method.2).map
          fun method => .about method.1 filename "Method name should be camelCase",
        if methods.all (fits room) then none else some .operation⟩ := by
  induction methods with
  | nil => rfl
  | cons method rest ih =>
      rw [List.map_cons, Look.chain_cons, ih]
      by_cases short : room < Text.judgingSteps method.2
      · have unfit : fits room method = false := by simpa [fits] using short
        simp [lookAtMethod, Text.isMethodNameIn, short, unfit, Look.andThen]
      · have fit : fits room method = true := by simpa [fits] using short
        have others : (method :: rest).all (fits room) = rest.all (fits room) := by
          rw [List.all_cons, fit, Bool.true_and]
        rw [others, List.takeWhile_cons_of_pos fit]
        cases accepted : Text.isMethodName method.2 with
        | true => simp [lookAtMethod, Text.isMethodNameIn, short, accepted]
        | false => simp [lookAtMethod, Text.isMethodNameIn, short, accepted]

/-- The issues about those methods that are misnamed. -/
def methodIssues (filename : String) (methods : List (Node × List Char)) : List Issue :=
  (methods.filter fun method => !Text.isMethodName method.2).map fun method =>
    ⟨filename, method.1.pos.line, method.1.pos.column, .error, false,
      "Method name should be camelCase", "PSR1.Methods.CamelCapsMethodName"⟩

theorem methodNameIn_reports (room : Nat) (forest : Forest) (filename : String) :
    let methods := (walk forest none).flatMap methodsOf
    (methodNameIn room).reports none forest filename =
      (methodIssues filename (methods.takeWhile (fits room)),
        if methods.all (fits room) then none else some .operation) := by
  intro methods
  have looks := funext (methodNameBy_looks (Text.isMethodNameIn room) filename)
  have chained : Look.chain ((walk forest none).map ((methodNameIn room).onEnter filename)) =
      Look.chain (methods.map (lookAtMethod (Text.isMethodNameIn room) filename)) := by
    rw [methodNameIn, looks, List.map_flatMap, Look.chain_flatMap]
  rw [(methodNameIn room).reports_eq_chain filename fun _ => rfl]
  simp only [Option.map_none, chained, chain_lookAtMethod, List.map_map]
  rfl

/-- The bundled rules report what their queries find, in the order of the walk and each with its own
code, severity, fixability and message. The rule on method names reports all that its query finds
exactly if every name fits into the room for judging it; else it stops at the first that does
not. -/
theorem bundled_rules_report_queries (room : Nat) (forest : Forest) (filename : String) :
    longArray.reports longArray.descendInto forest filename =
      (((walk forest (some (Node.isOneOf [.array, .arrayItem, .keyValue, .arrayAccess]))).filter
          isLongArray).map fun node => ⟨filename, node.pos.line, node.pos.column, .error, true,
            "Usage of long array syntax (array(...)) is disallowed; " ++
              "use short syntax ([...]) instead.",
            "Generic.Arrays.DisallowLongArraySyntax"⟩, none) ∧
    className.reports className.descendInto forest filename =
      (((walk forest none).filter isMisnamedClass).map fun node =>
        ⟨filename, node.pos.line, node.pos.column, .error, false,
          "Class name should be PascalCase", "PSR1.Classes.ClassDeclaration.PascalCase"⟩, none) ∧
    assignmentInCondition.reports assignmentInCondition.descendInto forest filename =
      ((((walk forest none).filter (Node.isOneOf [.ifStmt, .elseIf, .whileStmt])).filterMap
          fun node => findAssignment (conditionOf node)).map fun found =>
        ⟨filename, found.pos.line, found.pos.column, .warning, false,
          "Assignment in condition", "Generic.CodeAnalysis.AssignmentInCondition"⟩, none) ∧
    let methods := (walk forest none).flatMap methodsOf
    let reported := (methodNameIn room).reports (methodNameIn room).descendInto forest filename
    reported = (methodIssues filename (methods.takeWhile (fits room)),
      if methods.all (fits room) then none else some .operation) ∧
    (reported = (methodIssues filename methods, none) ↔
      ∀ method ∈ methods, Text.judgingSteps method.2 ≤ room) := by
  refine ⟨?_, ?_, ?_, methodNameIn_reports room forest filename, ?_⟩
  · rw [longArray.reports_eq_filterMap filename _ _ (fun _ => rfl) (longArray_looks filename),
      List.filterMap_eq_filter]
    rfl
  · rw [className.reports_eq_filterMap filename _ _ (fun _ => rfl) (className_looks filename),
      List.filterMap_eq_filter]
    rfl
  · rw [assignmentInCondition.reports_eq_filterMap filename _ _ (fun _ => rfl)
      (assignmentInCondition_looks filename), List.filterMap_filter,
      funext findAssignment_conditionOf]
    rfl
  · rw [show (methodNameIn room).descendInto = none from rfl, methodNameIn_reports]
    generalize (walk forest none).flatMap methodsOf = methods
    constructor
    · intro finished
      have judged := congrArg Prod.snd finished
      simpa [fits] using judged
    · intro judged
      have fitting : ∀ method ∈ methods, fits room method = true := by
        simpa [fits] using judged
      rw [List.takeWhile_eq_self_iff.mpr fitting, if_pos (List.all_eq_true.mpr fitting)]

/-- A misnamed method with many underscores before its name. -/
def underscored (count : Nat) : List Char := List.replicate count '_' ++ ['B', 'a', 'd']

theorem judgingSteps_underscored (count : Nat) :
    Text.judgingSteps (underscored count) = count + 3 := by
  have exempt : ¬Text.isMagic ['_', '_', 'B', 'a', 'd'] = true := by decide
  have steps := Text.judgingSteps_name ⟨count, ['B', 'a', 'd'], by decide⟩
  rw [Text.Prefixed.steps, if_neg (List.cons_ne_nil _ _),
    if_neg fun magic => exempt magic.2] at steps
  exact steps

theorem isMethodName_underscored (count : Nat) :
    Text.isMethodName (underscored count) = false := by
  have form : ¬Text.InForm Text.lowerChar ['B', 'a', 'd'] := by decide +kernel
  have other : ['B', 'a', 'd'] ≠ "set_state".toList := by decide
  have rejected : ¬Text.Prefixed.Accepted ⟨count, ['B', 'a', 'd'], by decide⟩ := by
    rintro ⟨-, lowered | ⟨-, state⟩⟩
    · exact form lowered
    · exact other state
  exact (Text.isMethodName_name _).trans (decide_eq_false rejected)

/-- After a name that does not fit, misnamed methods go unreported. -/
theorem methodNameIn_misses_methods :
    let long : Node := ⟨⟨2, 3, 0⟩, .functionDef (String.ofList (underscored 2000)) "" [] "" [] []⟩
    let worse : Node := ⟨⟨3, 3, 0⟩, .functionDef "Worse" "" [] "" [] []⟩
    let forest : Forest := [some ⟨⟨1, 1, 0⟩, .classDecl "C" "" [] [] [some long, some worse]⟩]
    methodIssues "a.php" ((walk forest none).flatMap methodsOf) =
      [⟨"a.php", 2, 3, .error, false, "Method name should be camelCase",
          "PSR1.Methods.CamelCapsMethodName"⟩,
        ⟨"a.php", 3, 3, .error, false, "Method name should be camelCase",
          "PSR1.Methods.CamelCapsMethodName"⟩] ∧
    (methodNameIn 993).reports (methodNameIn 993).descendInto forest "a.php" =
      ([], some .operation) := by
  intro long worse forest
  have methods : (walk forest none).flatMap methodsOf =
      [(long, underscored 2000), (worse, ['W', 'o', 'r', 's', 'e'])] := by
    simp [walk, forest, long, worse, Node.children, methodsOf, methodName?]
  have bad : Text.isMethodName ['W', 'o', 'r', 's', 'e'] = false := by decide
  constructor
  · rw [methods, methodIssues]
    simp [isMethodName_underscored, bad, long, worse]
  · have unfit : fits 993 (long, underscored 2000) = false := by
      rw [fits, judgingSteps_underscored]
      decide
    rw [show (methodNameIn 993).descendInto = none from rfl, methodNameIn_reports, methods]
    simp [unfit, methodIssues]

end Rules

end PhpLint
