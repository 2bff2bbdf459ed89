import PhpLint.Limits
import PhpLint.Tree.Fields

/-! Comparison of separately built trees in limited room. It goes through the fields in order and
ends at the first difference, so what comes after that takes no room. -/

namespace PhpLint

/-- What a comparison leaves to others: how a foreign node compares, on whichever side it stands, and of
which integers there is only one, so that it takes no step to see that they are equal. -/
structure Comparing where
  foreign : (room : Nat) → Node → Node → Except NestingError Bool
  shared : Int → Bool

def compareEntries {α ε : Type} (compare : α → α → Except ε Bool) : List α → List α → Except ε Bool
  | [], [] => .ok true
  | x :: xs, y :: ys =>
    match compare x y with
    | .ok true => compareEntries compare xs ys
    | other => other
  | _, _ => .ok false

-- two steps show that two things are of different sorts
def differ : (room : Nat) → Except NestingError Bool
  | 0 => .error .comparison
  | 1 => .error .call
  | _ => .ok false

namespace Comparing

variable (comparing : Comparing)

def sharedPosition (pos : Position) : Bool :=
  comparing.shared pos.line && comparing.shared pos.column && comparing.shared pos.offset

/-- It takes three steps to get at the numbers of a position, and one more to look at numbers that
are not one and the same. -/
def positions (a b : Position) : (room : Nat) → Except NestingError Bool
  | 0 | 2 => .error .comparison
  | 1 => .error .call
  | 3 => if comparing.sharedPosition a ∧ a = b then .ok true else .error .comparison
  | _ => .ok (decide (a = b))

def slotsBy (known : Node → Node → Except NestingError Bool) (room : Nat) :
    Option Node → Option Node → Except NestingError Bool
  | none, none => .ok true
  | some a, some b =>
    if a.kind.isKnown && b.kind.isKnown then known a b else comparing.foreign room a b
  | _, _ => differ room

/-- Compares two fields, given how nodes in slots and nodes in lists are compared. A list takes one
step before its entries are looked at, and lists of different lengths differ. -/
def fieldsBy (inSlot inList : Node → Node → Except NestingError Bool) (room : Nat) :
    Field → Field → Except NestingError Bool
  | .datum x, .datum y => if room = 0 then .error .comparison else .ok (x.agrees y)
  | .slot x, .slot y => comparing.slotsBy inSlot room x y
  | .list xs, .list ys =>
    if room = 0 then .error .comparison
    else if xs.length = ys.length then
      compareEntries (comparing.slotsBy inList (room - 1)) xs ys
    else .ok false
  | .position x, .position y => comparing.positions x y room
  | _, _ => .ok false

def nodesBy (inSlot inList : Node → Node → Except NestingError Bool) (room : Nat) (a b : Node) :
    Except NestingError Bool :=
  if a.kind = b.kind then compareEntries (comparing.fieldsBy inSlot inList room) a.fields b.fields
  else .ok false

/-- Compares two nodes of known kinds. It takes two steps to see of what kind they are, and a third
one to get at their fields. -/
def nodes : (room : Nat) → Node → Node → Except NestingError Bool
  | 0, _, _ => .error .comparison
  | 1, _, _ => .error .call
  | 2, a, b => if a.kind = b.kind then .error .comparison else .ok false
  | 3, a, b => comparing.nodesBy (nodes 0) (nodes 0) 0 a b
  | room + 4, a, b => comparing.nodesBy (nodes (room + 1)) (nodes room) (room + 1) a b

def slots (room : Nat) : Option Node → Option Node → Except NestingError Bool :=
  comparing.slotsBy (comparing.nodes room) room

end Comparing

end PhpLint
