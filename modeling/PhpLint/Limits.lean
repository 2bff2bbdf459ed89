import PhpLint.Tree.Kind

/-! What bounds evaluations: the integers that fit into 64 bits, how deeply evaluations may stand in one
another, how many digits are written, and how much memory is found. -/

namespace PhpLint

/-- Integers of 64 bits lie below this bound, and from its negative on. -/
def wordBound : Int := 9223372036854775808

def isWord (value : Int) : Bool := decide (-wordBound ≤ value ∧ value < wordBound)

theorem isWord_iff (value : Int) :
    isWord value = true ↔ -9223372036854775808 ≤ value ∧ value < 9223372036854775808 := by
  rw [isWord, decide_eq_true_eq, wordBound]

/-- What an evaluation was about to do when there was no room left for it: to start another one, to
compare two values, or to use an operation on texts. -/
inductive NestingError where
  | call
  | comparison
  | operation
  deriving DecidableEq, Repr

def NestingError.message : NestingError → String
  | .call => "maximum recursion depth exceeded"
  | .comparison => "maximum recursion depth exceeded in comparison"
  | .operation => "maximum recursion depth exceeded while calling a Python object"

/-- The limits of a machine, each of which may be missing: the steps that evaluations may stand in one
another, the digits of an integer that is written, and the characters that memory is found for. How
many steps it takes to read a token, and to embed a description, depends on the kind of the node. -/
structure Limits where
  room : Option Nat
  digits : Option Nat
  memory : Option Nat
  tokenSteps : Kind → Nat
  embeddingSteps : Kind → Nat

namespace Limits

def within (bound : Option Nat) (amount : Nat) : Bool := bound.all fun most => amount ≤ most

def hasRoom (limits : Limits) (steps : Nat) : Bool := within limits.room steps

/-- The limits that are left after some steps. -/
def after (limits : Limits) (steps : Nat) : Limits :=
  { limits with room := limits.room.map (· - steps) }

def endless : Limits := ⟨none, none, none, fun _ => 0, fun _ => 0⟩

@[simp]
theorem after_digits (limits : Limits) (steps : Nat) :
    (limits.after steps).digits = limits.digits := rfl

@[simp]
theorem after_tokenSteps (limits : Limits) (steps : Nat) :
    (limits.after steps).tokenSteps = limits.tokenSteps := rfl

@[simp]
theorem after_embeddingSteps (limits : Limits) (steps : Nat) :
    (limits.after steps).embeddingSteps = limits.embeddingSteps := rfl

theorem within_iff (bound : Option Nat) (amount : Nat) :
    within bound amount = true ↔ ∀ most ∈ bound, amount ≤ most := by
  cases bound <;> simp [within]

theorem hasRoom_iff (limits : Limits) (steps : Nat) :
    limits.hasRoom steps = true ↔ ∀ most ∈ limits.room, steps ≤ most :=
  within_iff limits.room steps

theorem hasRoom_add (limits : Limits) (first second : Nat) :
    limits.hasRoom (first + second) = (limits.hasRoom first && (limits.after first).hasRoom second) := by
  cases bound : limits.room with
  | none => simp [hasRoom, within, after, bound]
  | some most =>
    simp only [hasRoom, within, after, bound, Option.all_some, Option.map_some]
    rw [Bool.eq_iff_iff]
    simp only [decide_eq_true_eq, Bool.and_eq_true]
    omega

end Limits

end PhpLint
