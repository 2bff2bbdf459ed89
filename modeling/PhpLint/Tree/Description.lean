import PhpLint.Tree.Token

/-! One-line descriptions. A description embeds the descriptions of some children, down to a limited
depth, below which the text is left out. -/

namespace PhpLint

def unlessEmpty (text : String) : List String := if text = "" then [] else [text]

section Shapes

variable {α : Type} {m : Type → Type} [Monad m]

def ifPresent (text : Option α → m String) : Option α → m String
  | none => pure ""
  | some child => text (some child)

def Position.text (decimal : Int → m String) (pos : Position) : m String := do
  let line ← decimal pos.line
  let column ← decimal pos.column
  return line ++ ":" ++ column

/-- The text of a shape, given how an integer is written, how a slot is embedded and how its token is
read. -/
def Shape.describe (decimal : Int → m String) (embed token : Option α → m String) :
    Shape α → m String
  | .identifier name => return "Identifier(" ++ name ++ ")"
  | .variableRef name => return "Variable($" ++ name ++ ")"
  | .stringLiteral value => return "\"" ++ value ++ "\""
  | .integerLiteral value => return "Integer(" ++ (← decimal value) ++ ")"
  | .floatLiteral value => return "Float(" ++ value.general ++ ")"
  | .booleanLiteral value => return "Boolean(" ++ (if value then "true" else "false") ++ ")"
  | .nullLiteral => return "Null"
  | .interpolatedString _ => return "InterpolatedString"
  | .comment value => return "Comment(" ++ value ++ ")"
  | .assignment left right => return "Assignment(" ++ (← embed left) ++ " = " ++ (← embed right) ++ ")"
  | .binaryExpr left operator right =>
    return "BinaryExpr(" ++ (← embed left) ++ " " ++ operator ++ " " ++ (← embed right) ++ ")"
  | .functionCall name _ => return "FunctionCall(" ++ name ++ ")"
  | .methodCall _ method _ => return "MethodCall(" ++ method ++ ")"
  | .creation className _ => return "New(" ++ className ++ ")"
  | .array elements _ => return "Array(" ++ ", ".intercalate (← elements.mapM embed) ++ ")"
  | .arrayItem key value byRef unpack => do
    let marks := (if byRef then "&" else "") ++ (if unpack then "..." else "")
    let keyText ← ifPresent (fun key => return (← token key) ++ " => ") key
    return "ArrayItem(" ++ marks ++ keyText ++ (← token value) ++ ")"
  | .keyValue key value => do
    let keyText ← ifPresent (fun key => return (← embed key) ++ " => ") key
    return keyText ++ (← embed value)
  | .arrayAccess base index => do
    let indexText ← ifPresent embed index
    return "ArrayAccess(" ++ (← embed base) ++ "[" ++ indexText ++ "])"
  | .parameter name typeHint default => do
    let defaultText ← ifPresent (fun default => return " = " ++ (← embed default)) default
    return " ".intercalate (unlessEmpty typeHint ++ ["$" ++ name]) ++ defaultText
  | .functionDecl name _ _ => return "Function(" ++ name ++ ")"
  | .functionDef name visibility modifiers returnType _ _ =>
    return " ".intercalate
      ((if modifiers = [] then [] else [" ".intercalate modifiers]) ++ unlessEmpty visibility ++
        ["Function(" ++ name ++ ")"] ++ (unlessEmpty returnType).map (": " ++ ·))
  | .returnStmt expr => return "Return(" ++ (← ifPresent embed expr) ++ ")"
  | .expressionStmt expr => return "ExpressionStmt(" ++ (← embed expr) ++ ")"
  | .ifStmt condition _ _ _ => return "If(Cond: " ++ (← embed condition) ++ ")"
  | .elseIf condition _ => return "ElseIf(Cond: " ++ (← embed condition) ++ ")"
  | .elseBranch _ => return "Else"
  | .whileStmt condition _ => return "While(Cond: " ++ (← embed condition) ++ ")"
  | .property name visibility =>
    return " ".intercalate (unlessEmpty visibility ++ ["Property($" ++ name ++ ")"])
  | .classDecl name parent interfaces _ _ =>
    return " ".intercalate
      (["Class(" ++ name ++ ")"] ++ (unlessEmpty parent).map ("extends " ++ ·) ++
        (if interfaces = [] then [] else ["implements " ++ ", ".intercalate interfaces]))
  | .foreign _ text _ => return text

/-- Every description ends in the position, save that of a key with its value. -/
def Shape.isLocated : Shape α → Bool
  | .keyValue _ _ => false
  | _ => true

def Shape.describeAt (pos : Position) (decimal : Int → m String) (embed token : Option α → m String)
    (shape : Shape α) : m String := do
  let text ← shape.describe decimal embed token
  if shape.isLocated then return text ++ " @ " ++ (← pos.text decimal) else return text

end Shapes

/-- The text of an entry with so many levels left, its own among them: without any it is left out,
whether it stands empty or not. -/
def describeEntry (limits : Limits) : Nat → Option Node → Except TokenError String
  | 0, _ => .ok "..."
  | _ + 1, none => .ok "None"
  | levels + 1, some node =>
    node.shape.describeAt node.pos limits.decimal
      (fun entry => limits.spend (limits.embeddingSteps node.kind) fun left =>
        describeEntry left levels entry)
      (slotToken limits)

namespace Node

/-- How many levels a description embeds. -/
def descriptionDepth : Nat := 16

def description (limits : Limits) (node : Node) : Except TokenError String :=
  describeEntry limits (descriptionDepth + 1) (some node)

end Node

end PhpLint
