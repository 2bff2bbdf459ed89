import PhpLint.Text.Case

/-! Sets of function names under a case policy. -/

namespace PhpLint

/-- Members are kept in normal form, in increasing order. -/
structure NameSet where
  caseSensitive : Bool
  names : List String
  deriving DecidableEq, Repr

namespace NameSet

/-- Under a policy that ignores case, names are compared in lower case. -/
def normalize (caseSensitive : Bool) (name : String) : String :=
  if caseSensitive then name else Text.lower name

def insertSorted (name : String) : List String → List String
  | [] => [name]
  | other :: rest =>
    if name < other then name :: other :: rest
    else if name = other then other :: rest
    else other :: insertSorted name rest

def empty (caseSensitive : Bool) : NameSet := ⟨caseSensitive, []⟩

def insert (set : NameSet) (name : String) : NameSet :=
  { set with names := insertSorted (normalize set.caseSensitive name) set.names }

def insertAll (set : NameSet) (names : List String) : NameSet := names.foldl insert set

def contains (set : NameSet) (name : String) : Bool :=
  set.names.contains (normalize set.caseSensitive name)

def size (set : NameSet) : Nat := set.names.length

def defaultBuiltins : List String := ["echo", "print", "strlen", "count"]

/-- The builtins given by name, or the default ones. -/
def builtins (names : Option (List String)) (caseSensitive : Bool) : NameSet :=
  (empty caseSensitive).insertAll (names.getD defaultBuiltins)

end NameSet

end PhpLint
