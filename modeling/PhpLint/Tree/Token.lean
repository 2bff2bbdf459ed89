import PhpLint.Limits
import PhpLint.Tree.Node

/-! Token literals: the piece of source text a node was built from. -/

namespace PhpLint

/-- Why a text of a node cannot be given: a slot stands empty, the nodes it is made up from stand too
deeply in one another, or an integer has more digits than are written. -/
inductive TokenError where
  | emptySlot
  | tooDeep
  | oversizedInteger (most : Nat)
  deriving DecidableEq, Repr

def TokenError.message : TokenError → String
  | .emptySlot => "'NoneType' object has no attribute 'token_literal'"
  | .tooDeep => NestingError.call.message
  | .oversizedInteger most =>
    "Exceeds the limit (" ++ toString most ++ " digits) for integer string conversion; " ++
      "use sys.set_int_max_str_digits() to increase the limit"

namespace Limits

/-- Goes on with what is left after some steps. -/
def spend {α : Type} {m : Type → Type} [MonadExceptOf TokenError m] (limits : Limits) (steps : Nat)
    (go : Limits → m α) : m α :=
  if limits.hasRoom steps then go (limits.after steps) else throw .tooDeep

def decimal (limits : Limits) (value : Int) : Except TokenError String :=
  match limits.digits with
  | none => .ok (toString value)
  | some most =>
    if most < Binary64.decimalWidth value.natAbs then .error (.oversizedInteger most)
    else .ok (toString value)

end Limits

/-- The token of a shape that has one of its own. An expression statement and an interpolated string
have none; theirs is put together from those of other nodes. -/
def Shape.ownToken {α : Type} (limits : Limits) : Shape α → Except TokenError String
  | .identifier name | .variableRef name | .functionCall name _ | .parameter name _ _
  | .property name _ => .ok name
  | .stringLiteral value | .comment value => .ok value
  | .integerLiteral value => limits.decimal value
  | .floatLiteral value => .ok value.general
  | .booleanLiteral value => .ok (if value then "true" else "false")
  | .nullLiteral => .ok "null"
  | .assignment _ _ => .ok "="
  | .binaryExpr _ operator _ => .ok operator
  | .methodCall _ method _ => .ok method
  | .creation _ _ => .ok "new"
  | .array _ long => .ok (if long then "array" else "[")
  | .arrayItem key _ _ _ => .ok (if key.isSome then "=>" else "")
  | .keyValue _ _ => .ok "=>"
  | .arrayAccess _ _ => .ok "["
  | .functionDecl _ _ _ | .functionDef _ _ _ _ _ _ => .ok "function"
  | .returnStmt _ => .ok "return"
  | .ifStmt _ _ _ _ => .ok "if"
  | .elseIf _ _ => .ok "elseif"
  | .elseBranch _ => .ok "else"
  | .whileStmt _ _ => .ok "while"
  | .classDecl _ _ _ _ _ => .ok "class"
  | .interpolatedString _ | .expressionStmt _ | .foreign _ _ _ => .ok ""

mutual

def Node.token (limits : Limits) : Node → Except TokenError String
  | ⟨_, .interpolatedString parts⟩ =>
    limits.spend (limits.tokenSteps .interpolatedString) fun left => tokens left parts
  | ⟨_, .expressionStmt expr⟩ =>
    limits.spend (limits.tokenSteps .expressionStmt) fun left => slotToken left expr
  | ⟨_, shape⟩ => limits.spend (limits.tokenSteps shape.kind) fun left => shape.ownToken left

def slotToken (limits : Limits) : Option Node → Except TokenError String
  | none => .error .emptySlot
  | some node => node.token limits

/-- The tokens of a list, one after the other. -/
def tokens (limits : Limits) : List (Option Node) → Except TokenError String
  | [] => .ok ""
  | slot :: rest => do
    let first ← slotToken limits slot
    let others ← tokens limits rest
    return first ++ others

end

end PhpLint
