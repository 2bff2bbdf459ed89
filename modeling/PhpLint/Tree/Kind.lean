/-! Kinds of syntax tree nodes. -/

namespace PhpLint

/-- The kinds the library knows, and the kinds it only knows by name. -/
inductive Kind where
  | identifier
  | variableRef
  | stringLiteral
  | integerLiteral
  | floatLiteral
  | booleanLiteral
  | nullLiteral
  | interpolatedString
  | comment
  | assignment
  | binaryExpr
  | functionCall
  | methodCall
  | creation
  | array
  | arrayItem
  | keyValue
  | arrayAccess
  | parameter
  | functionDecl
  | functionDef
  | returnStmt
  | expressionStmt
  | ifStmt
  | elseIf
  | elseBranch
  | whileStmt
  | property
  | classDecl
  | foreign (name : String)
  deriving DecidableEq, Repr

namespace Kind

def name : Kind → String
  | .identifier => "Identifier"
  | .variableRef => "Variable"
  | .stringLiteral => "StringLiteral"
  | .integerLiteral => "IntegerLiteral"
  | .floatLiteral => "FloatLiteral"
  | .booleanLiteral => "BooleanLiteral"
  | .nullLiteral => "NullLiteral"
  | .interpolatedString => "InterpolatedString"
  | .comment => "Comment"
  | .assignment => "Assignment"
  | .binaryExpr => "BinaryExpr"
  | .functionCall => "FunctionCall"
  | .methodCall => "MethodCall"
  | .creation => "New"
  | .array => "Array"
  | .arrayItem => "ArrayItem"
  | .keyValue => "KeyValue"
  | .arrayAccess => "ArrayAccess"
  | .parameter => "Parameter"
  | .functionDecl => "FunctionDecl"
  | .functionDef => "FunctionDef"
  | .returnStmt => "Return"
  | .expressionStmt => "ExpressionStmt"
  | .ifStmt => "If"
  | .elseIf => "ElseIf"
  | .elseBranch => "Else"
  | .whileStmt => "While"
  | .property => "Property"
  | .classDecl => "Class"
  | .foreign name => name

def known : List Kind :=
  [.identifier, .variableRef, .stringLiteral, .integerLiteral, .floatLiteral, .booleanLiteral,
    .nullLiteral, .interpolatedString, .comment, .assignment, .binaryExpr, .functionCall,
    .methodCall, .creation, .array, .arrayItem, .keyValue, .arrayAccess, .parameter, .functionDecl,
    .functionDef, .returnStmt, .expressionStmt, .ifStmt, .elseIf, .elseBranch, .whileStmt,
    .property, .classDecl]

def isKnown : Kind → Bool
  | .foreign _ => false
  | _ => true

/-- The kind of a given name; a name that no known kind has is foreign. -/
def ofName (name : String) : Kind :=
  (known.find? (·.name = name)).getD (.foreign name)

end Kind

end PhpLint
