import PhpLint.Number.General
import PhpLint.Tree.Kind

/-! Syntax tree nodes. A node is a position and a shape; the shape holds the node's own data and its
children, which may be missing wherever a slot or a list entry stands empty. -/

namespace PhpLint

/-- A place in a source file, all zero when unknown. -/
structure Position where
  line : Int
  column : Int
  offset : Int
  deriving DecidableEq, Repr

def Position.unknown : Position := ⟨0, 0, 0⟩

structure ElseIf (α : Type) where
  pos : Position
  condition : Option α
  body : List (Option α)
  deriving DecidableEq, Repr

structure Else (α : Type) where
  pos : Position
  body : List (Option α)
  deriving DecidableEq, Repr

/-- What a node is, over the type of its children. -/
inductive Shape (α : Type) where
  | identifier (name : String)
  | variableRef (name : String)
  | stringLiteral (value : String)
  | integerLiteral (value : Int)
  | floatLiteral (value : Binary64)
  | booleanLiteral (value : Bool)
  | nullLiteral
  | interpolatedString (parts : List (Option α))
  | comment (value : String)
  | assignment (left right : Option α)
  | binaryExpr (left : Option α) (operator : String) (right : Option α)
  | functionCall (name : String) (args : List (Option α))
  | methodCall (receiver : Option α) (method : String) (args : List (Option α))
  | creation (className : String) (args : List (Option α))
  | array (elements : List (Option α)) (long : Bool)
  | arrayItem (key value : Option α) (byRef unpack : Bool)
  | keyValue (key value : Option α)
  | arrayAccess (base index : Option α)
  | parameter (name typeHint : String) (default : Option α)
  | functionDecl (name : String) (params body : List (Option α))
  | functionDef (name visibility : String) (modifiers : List String) (returnType : String)
      (params body : List (Option α))
  | returnStmt (expr : Option α)
  | expressionStmt (expr : Option α)
  | ifStmt (condition : Option α) (body : List (Option α)) (elseIfs : List (ElseIf α))
      (otherwise : Option (Else α))
  | elseIf (condition : Option α) (body : List (Option α))
  | elseBranch (body : List (Option α))
  | whileStmt (condition : Option α) (body : List (Option α))
  | property (name visibility : String)
  | classDecl (name parent : String) (interfaces : List String)
      (properties methods : List (Option α))
  | foreign (kind text : String) (children : List (Option α))
  deriving DecidableEq, Repr

def Shape.kind {α : Type} : Shape α → Kind
  | .identifier _ => .identifier
  | .variableRef _ => .variableRef
  | .stringLiteral _ => .stringLiteral
  | .integerLiteral _ => .integerLiteral
  | .floatLiteral _ => .floatLiteral
  | .booleanLiteral _ => .booleanLiteral
  | .nullLiteral => .nullLiteral
  | .interpolatedString _ => .interpolatedString
  | .comment _ => .comment
  | .assignment _ _ => .assignment
  | .binaryExpr _ _ _ => .binaryExpr
  | .functionCall _ _ => .functionCall
  | .methodCall _ _ _ => .methodCall
  | .creation _ _ => .creation
  | .array _ _ => .array
  | .arrayItem _ _ _ _ => .arrayItem
  | .keyValue _ _ => .keyValue
  | .arrayAccess _ _ => .arrayAccess
  | .parameter _ _ _ => .parameter
  | .functionDecl _ _ _ => .functionDecl
  | .functionDef _ _ _ _ _ _ => .functionDef
  | .returnStmt _ => .returnStmt
  | .expressionStmt _ => .expressionStmt
  | .ifStmt _ _ _ _ => .ifStmt
  | .elseIf _ _ => .elseIf
  | .elseBranch _ => .elseBranch
  | .whileStmt _ _ => .whileStmt
  | .property _ _ => .property
  | .classDecl _ _ _ _ _ => .classDecl
  | .foreign kind _ _ => .foreign kind

structure Node where
  pos : Position
  shape : Shape Node

/-- A sequence of roots, some of which may be missing. -/
abbrev Forest := List (Option Node)

namespace Node

def kind (node : Node) : Kind := node.shape.kind

def ofElseIf (branch : ElseIf Node) : Node := ⟨branch.pos, .elseIf branch.condition branch.body⟩

def ofElse (branch : Else Node) : Node := ⟨branch.pos, .elseBranch branch.body⟩

end Node

end PhpLint
