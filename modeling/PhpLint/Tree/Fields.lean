import PhpLint.Tree.Children

/-! The fields of a node in the order of their declaration, which is the order of comparison. -/

namespace PhpLint

inductive Datum where
  | text (value : String)
  | texts (values : List String)
  | integer (value : Int)
  | float (value : Binary64)
  | flag (value : Bool)
  deriving DecidableEq, Repr

/-- Floats agree as numbers. -/
def Datum.agrees : Datum → Datum → Bool
  | .float x, .float y => x.numericEq y
  | x, y => decide (x = y)

inductive Field where
  | datum (value : Datum)
  | slot (child : Option Node)
  | list (children : Forest)
  | position (pos : Position)

namespace Field

def text (value : String) : Field := .datum (.text value)

def texts (values : List String) : Field := .datum (.texts values)

def flag (value : Bool) : Field := .datum (.flag value)

end Field

def Node.ownFields (node : Node) : List Field :=
  match node.shape with
  | .identifier name | .variableRef name => [.text name]
  | .stringLiteral value | .comment value => [.text value]
  | .integerLiteral value => [.datum (.integer value)]
  | .floatLiteral value => [.datum (.float value)]
  | .booleanLiteral value => [.flag value]
  | .nullLiteral => []
  | .interpolatedString parts => [.list parts]
  | .assignment left right => [.slot left, .slot right]
  | .binaryExpr left operator right => [.slot left, .text operator, .slot right]
  | .functionCall name args | .creation name args => [.text name, .list args]
  | .methodCall receiver method args => [.slot receiver, .text method, .list args]
  | .array elements long => [.list elements, .flag long]
  | .arrayItem key value byRef unpack => [.slot value, .slot key, .flag byRef, .flag unpack]
  | .keyValue key value => [.slot value, .slot key]
  | .arrayAccess base index => [.slot base, .slot index]
  | .parameter name typeHint default => [.text name, .text typeHint, .slot default]
  | .functionDecl name params body => [.text name, .list params, .list body]
  | .functionDef name visibility modifiers returnType params body =>
    [.text name, .text visibility, .texts modifiers, .text returnType, .list params, .list body]
  | .returnStmt expr | .expressionStmt expr => [.slot expr]
  | .ifStmt condition body elseIfs otherwise =>
    [.slot condition, .list body, .list (elseIfs.map (some ∘ Node.ofElseIf)),
      .slot (otherwise.map Node.ofElse)]
  | .elseIf condition body | .whileStmt condition body => [.slot condition, .list body]
  | .elseBranch body => [.list body]
  | .property name visibility => [.text name, .text visibility]
  | .classDecl name parent interfaces properties methods =>
    [.text name, .text parent, .texts interfaces, .list properties, .list methods]
  | .foreign _ text children => [.text text, .list children]

/-- The fields of a node, its position last. -/
def Node.fields (node : Node) : List Field := node.ownFields ++ [.position node.pos]

end PhpLint
