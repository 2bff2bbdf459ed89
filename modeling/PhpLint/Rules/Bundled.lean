import PhpLint.Rules.Rule
import PhpLint.Text.Naming
import PhpLint.Tree.Traversal

/-! The bundled rules. -/

namespace PhpLint.Rules

def longArray : Rule where
  title := "Long arrays"
  code := "Generic.Arrays.DisallowLongArraySyntax"
  severity := .error
  fixable := true
  descendInto := some [.array, .arrayItem, .keyValue, .arrayAccess]
  onEnter filename node :=
    match node.shape with
    | .array _ true =>
      .full [.about node filename ("Usage of long array syntax (array(...)) is disallowed; " ++
        "use short syntax ([...]) instead.")]
    | _ => .full []
  onLeave _ _ := []

def operandKinds : List Kind :=
  [.binaryExpr, .expressionStmt, .functionCall, .methodCall, .interpolatedString]

def findAssignment (condition : Option Node) : Option Node :=
  (walk [condition] (some (Node.isOneOf operandKinds))).find? (·.kind = .assignment)

def conditionOf (node : Node) : Option Node :=
  match node.shape with
  | .ifStmt condition _ _ _ | .elseIf condition _ | .whileStmt condition _ => condition
  | _ => none

/-- Assignments inside conditions, at most one for each condition. -/
def assignmentInCondition : Rule where
  title := "Assignments in conditions"
  code := "Generic.CodeAnalysis.AssignmentInCondition"
  severity := .warning
  fixable := false
  descendInto := none
  onEnter filename node :=
    .full ((findAssignment (conditionOf node)).map fun found =>
      .about found filename "Assignment in condition").toList
  onLeave _ _ := []

def className : Rule where
  title := "Class names"
  code := "PSR1.Classes.ClassDeclaration.PascalCase"
  severity := .error
  fixable := false
  descendInto := none
  onEnter filename node :=
    match node.shape with
    | .classDecl name _ _ _ _ =>
      if name = Text.pascalCase name then .full []
      else .full [.about node filename "Class name should be PascalCase"]
    | _ => .full []
  onLeave _ _ := []

def methodName? (member : Node) : Option (List Char) :=
  match member.shape with
  | .functionDef name _ _ _ _ _ => some name.toList
  | _ => none

/-- Looks at class members in turn, and stops at a method whose name cannot be judged. -/
def lookAtMethods (judge : List Char → Except NestingError Bool) (filename : String) :
    List Node → Look
  | [] => .full []
  | member :: rest =>
    match (methodName? member).map judge with
    | some (.error error) => ⟨[], some error⟩
    | some (.ok false) =>
      (lookAtMethods judge filename rest).after
        (.about member filename "Method name should be camelCase")
    | _ => lookAtMethods judge filename rest

def methodNameBy (judge : List Char → Except NestingError Bool) : Rule where
  title := "Method names"
  code := "PSR1.Methods.CamelCapsMethodName"
  severity := .error
  fixable := false
  descendInto := none
  onEnter filename node :=
    match node.shape with
    | .classDecl _ _ _ _ methods => lookAtMethods judge filename (methods.filterMap id)
    | _ => .full []
  onLeave _ _ := []

def methodName : Rule := methodNameBy fun name => .ok (Text.isMethodName name)

/-- The rule where there is only so much room to judge a name. -/
def methodNameIn (room : Nat) : Rule := methodNameBy (Text.isMethodNameIn room)

end PhpLint.Rules
