import PhpLint.Limits

/-! The layout of an outline, and how its lines are indented. -/

namespace PhpLint.Outline

/-- Where outlines start and how a level is indented. -/
structure Layout where
  indent : Int
  unit : String
  deriving DecidableEq, Repr

def Layout.default : Layout := ⟨0, "  "⟩

/-- Why a line cannot be indented: the level or the length of the indentation does not fit into 64
bits, or no memory is found for it. -/
inductive IndentError where
  | levelRange
  | lengthRange
  | memory
  deriving DecidableEq, Repr

def IndentError.message : IndentError → String
  | .levelRange => "cannot fit 'int' into an index-sized integer"
  | .lengthRange => "repeated string is too long"
  | .memory => ""

/-- The unit, once for each level. A level of zero or less is not indented, and with an empty unit
no level is; but every level has to fit into 64 bits. -/
def indentation (limits : Limits) (unit : String) (level : Int) : Except IndentError String :=
  let length := unit.length * level.toNat
  if !isWord level then .error .levelRange
  else if length = 0 then .ok ""
  else if wordBound ≤ Int.ofNat length then .error .lengthRange
  else if !Limits.within limits.memory length then .error .memory
  else .ok (String.join (List.replicate level.toNat unit))

end PhpLint.Outline
