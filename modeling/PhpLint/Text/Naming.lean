import PhpLint.Limits
import PhpLint.Text.Case

/-! Naming conventions for identifiers. -/

namespace PhpLint.Text

/-- Drops underscores and raises the character after each; `raise` says whether to raise the first
one as well. -/
def joinWords : (raise : Bool) → List Char → List Char
  | _, [] => []
  | raise, c :: rest =>
    if c = '_' then joinWords true rest
    else (if raise then upperChar c else [c]) ++ joinWords false rest

def pascalChars (name : List Char) : List Char := joinWords true name

/-- Only a first character that is no underscore is lowered. -/
def camelChars : List Char → List Char
  | [] => []
  | c :: rest => if c = '_' then joinWords true rest else lowerChar c ++ joinWords false rest

def pascalCase (name : String) : String := String.ofList (pascalChars name.toList)

def camelCase (name : String) : String := String.ofList (camelChars name.toList)

def magicMethods : List String :=
  ["__construct", "__destruct", "__call", "__callStatic", "__get", "__set", "__isset", "__unset",
    "__sleep", "__wakeup", "__serialize", "__unserialize", "__toString", "__invoke", "__set_state",
    "__clone", "__debugInfo", "__autoload"]

/-- A method name is a magic one, or in camel case once leading underscores are set aside. -/
def isMethodName : List Char → Bool
  | [] => false
  | c :: rest =>
    if (c :: rest) ∈ magicMethods.map String.toList then true
    else if c = '_' ∧ rest ≠ [] then isMethodName rest
    else camelChars (c :: rest) = c :: rest

/-- The steps that judging a method name takes: one for each underscore that is set aside, and those
for what is left. -/
def judgingSteps : List Char → Nat
  | [] => 1
  | c :: rest =>
    if (c :: rest) ∈ magicMethods.map String.toList then 1
    else if c = '_' ∧ rest ≠ [] then judgingSteps rest + 1
    else 3

def isMethodNameIn (room : Nat) (name : List Char) : Except NestingError Bool :=
  if room < judgingSteps name then .error .operation else .ok (isMethodName name)

end PhpLint.Text
