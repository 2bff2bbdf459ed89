import PhpLint.Proofs.BundledRules

/-! What the rules on names object to, told by the names alone: classes whose name is not in Pascal
case, and methods whose name is not in camel case once all underscores before it are set aside. -/

namespace PhpLint.Rules

/-- The name of a node that declares a class. -/
def classNameOf (node : Node) : Option String :=
  match node.shape with
  | .classDecl name _ _ _ _ => some name
  | _ => none

/-- A class under its name in Pascal case; any other node as it is. -/
def inPascalCase (node : Node) : Node :=
  match node.shape with
  | .classDecl name parent interfaces properties methods =>
    ⟨node.pos, .classDecl (Text.pascalCase name) parent interfaces properties methods⟩
  | _ => node

theorem classNameOf_inPascalCase (node : Node) :
    classNameOf (inPascalCase node) = (classNameOf node).map Text.pascalCase := by
  obtain ⟨pos, shape⟩ := node
  cases shape <;> rfl

theorem isMisnamedClass_eq_any (node : Node) :
    isMisnamedClass node =
      (classNameOf node).any fun name => ¬Text.InForm Text.upperChar name.toList := by
  obtain ⟨pos, shape⟩ := node
  cases shape with
  | classDecl name parent interfaces properties methods =>
      have changed : name ≠ Text.pascalCase name ↔ ¬Text.InForm Text.upperChar name.toList := by
        rw [← Text.pascalCase_eq_self_iff]
        exact ne_comm
      exact decide_eq_decide.mpr changed
  | _ => rfl

theorem not_isMisnamedClass_iff (node : Node) :
    ¬isMisnamedClass node = true ↔
      ∀ name ∈ classNameOf node, ∃ other, Text.pascalCase other = name := by
  rw [isMisnamedClass_eq_any]
  cases classNameOf node with
  | none => simp
  | some name => simp [Text.exists_pascalCase_iff]

theorem not_isMisnamedClass_inPascalCase (node : Node) :
    ¬isMisnamedClass (inPascalCase node) = true := by
  rw [not_isMisnamedClass_iff, classNameOf_inPascalCase]
  intro name renamed
  obtain ⟨old, -, same⟩ := Option.map_eq_some_iff.mp renamed
  exact ⟨old, same⟩

/-- A name is left as it is by the conversion to Pascal case exactly if it has no underscore and the
upper case of its first character is that character; so every result of the conversion is. The rule
on class names reports the classes it reaches whose names are not like that, in the order of the
walk. It reports no class under a name in Pascal case, and nothing exactly if the names of all
classes it reaches are results of the conversion. -/
theorem className_reports_names_out_of_form :
    (∀ name : String,
      (Text.pascalCase name = name ↔
        '_' ∉ name.toList ∧ ∀ first ∈ name.toList.head?, Text.upperChar first = [first]) ∧
      '_' ∉ (Text.pascalCase name).toList ∧
      Text.pascalCase (Text.pascalCase name) = Text.pascalCase name) ∧
    ∀ descendInto forest filename,
      let reached := walk forest (descendInto.map Node.isOneOf)
      let reported := reached.filter fun node =>
        (classNameOf node).any fun name => ¬Text.InForm Text.upperChar name.toList
      className.reports descendInto forest filename =
        (reported.map fun node => ⟨filename, node.pos.line, node.pos.column, .error, false,
          "Class name should be PascalCase", "PSR1.Classes.ClassDeclaration.PascalCase"⟩, none) ∧
      (∀ node, inPascalCase node ∉ reported) ∧
      (reported = [] ↔ ∀ node ∈ reached, ∀ name ∈ classNameOf node,
        ∃ other, Text.pascalCase other = name) := by
  constructor
  · intro name
    have form := Text.inForm_pascalCase name
    exact ⟨Text.pascalCase_eq_self_iff name, form.1, (Text.pascalCase_eq_self_iff _).mpr form⟩
  · intro descendInto forest filename reached reported
    have misnamed : reported = reached.filter isMisnamedClass := by
      rw [funext isMisnamedClass_eq_any]
    rw [misnamed]
    refine ⟨?_, ?_, ?_⟩
    · rw [className.reports_eq_filterMap filename _ _ (fun _ => rfl) (className_looks filename),
        List.filterMap_eq_filter]
      rfl
    · intro node member
      exact not_isMisnamedClass_inPascalCase node (List.mem_filter.mp member).2
    · simp only [List.filter_eq_nil_iff, not_isMisnamedClass_iff]

open Text (Prefixed)

theorem methodIssues_eq (filename : String) (methods : List (Node × List Char)) :
    methodIssues filename methods =
      (methods.filter fun method => ¬(Prefixed.ofName method.2).Accepted).map fun method =>
        ⟨filename, method.1.pos.line, method.1.pos.column, .error, false,
          "Method name should be camelCase", "PSR1.Methods.CamelCapsMethodName"⟩ := by
  rw [methodIssues]
  congr 1
  apply List.filter_congr
  intro method _
  rw [← Prefixed.name_ofName method.2, Text.isMethodName_name, Prefixed.ofName_name, decide_not]

/-- All underscores before a name are set aside, not one only: a second one makes no difference but
to the one name that is exempt with it and for no other reason. A name with two or more is turned
down exactly if nothing is left of it, or if what is left is neither in camel case nor that name's
stem. So the rule on method names reports, as far as it gets, the methods whose stems are not
accepted. -/
theorem leading_underscores_are_all_ignored (room : Nat) (name : List Char) (forest : Forest)
    (filename : String) :
    Text.isMethodName ('_' :: '_' :: name) =
      (Text.isMethodName ('_' :: name) || decide (name = "set_state".toList)) ∧
    (Text.isMethodName ('_' :: '_' :: name) = false ↔
      let stem := (Prefixed.ofName name).stem
      stem = [] ∨ ¬Text.InForm Text.lowerChar stem ∧ stem ≠ "set_state".toList) ∧
    let methods := (walk forest none).flatMap methodsOf
    (methodNameIn room).reports (methodNameIn room).descendInto forest filename =
      (((methods.takeWhile (fits room)).filter fun method =>
          ¬(Prefixed.ofName method.2).Accepted).map fun method =>
        ⟨filename, method.1.pos.line, method.1.pos.column, .error, false,
          "Method name should be camelCase", "PSR1.Methods.CamelCapsMethodName"⟩,
      if methods.all (fits room) then none else some .operation) := by
  refine ⟨Text.isMethodName_second_underscore name, ?_, ?_⟩
  · rw [← Bool.not_eq_true, Text.isMethodName_two_underscores]
    tauto
  · intro methods
    rw [← methodIssues_eq]
    exact methodNameIn_reports room forest filename

/-- A method with two underscores before its name is accepted, though it is not exempt. -/
theorem methodNameIn_passes_two_underscores :
    let method : Node := ⟨⟨2, 3, 0⟩, .functionDef "__foo" "" [] "" [] []⟩
    let forest : Forest := [some ⟨⟨1, 1, 0⟩, .classDecl "C" "" [] [] [some method]⟩]
    "__foo" ∉ Text.magicMethods ∧
      Text.isMethodNameIn 997 "__foo".toList = .ok true ∧
      (methodNameIn 993).reports (methodNameIn 993).descendInto forest "a.php" = ([], none) := by
  intro method forest
  refine ⟨by decide, by decide +kernel, ?_⟩
  have methods : (walk forest none).flatMap methodsOf = [(method, ['_', '_', 'f', 'o', 'o'])] := by
    simp [walk, forest, method, Node.children, methodsOf, methodName?]
  have fit : fits 993 (method, ['_', '_', 'f', 'o', 'o']) = true := by decide +kernel
  have accepted : Text.isMethodName ['_', '_', 'f', 'o', 'o'] = true := by decide +kernel
  rw [show (methodNameIn 993).descendInto = none from rfl, methodNameIn_reports, methods]
  simp [fit, accepted, methodIssues]

end PhpLint.Rules
