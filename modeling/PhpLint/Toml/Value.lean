import PhpLint.Toml.Moment
import PhpLint.Toml.Number
import PhpLint.Toml.Table

/-! Keys and values of TOML documents. -/

namespace PhpLint.Toml

open Settings (Value Table)

/-- What reading allows for: the digits of a decimal integer, and the steps that values may stand in one
another, with those that a list takes, an inline table, and a value without others in it. -/
structure Allowance where
  digits : Nat
  room : Nat
  listSteps : Nat
  tableSteps : Nat
  plainSteps : List Char → Nat

def isBareKeyChar (c : Char) : Bool := c.isAlphanum || c = '-' || c = '_'

def readKeyPart (text : List Char) : Option (String × List Char) :=
  match text with
  | [] => none
  | '"' :: rest =>
    (readQuoted false .plain rest).map fun (key, rest) => (String.ofList key, rest)
  | '\'' :: rest => (readLiteral false rest).map fun (key, rest) => (String.ofList key, rest)
  | c :: _ =>
    if isBareKeyChar c then
      some (String.ofList (text.takeWhile isBareKeyChar), text.dropWhile isBareKeyChar)
    else none

def readKey : Nat → List Char → Option (List String × List Char)
  | 0, _ => none
  | fuel + 1, text => do
    let (part, rest) ← readKeyPart text
    match skipGaps rest with
    | '.' :: rest =>
      let (parts, rest) ← readKey fuel (skipGaps rest)
      return (part :: parts, rest)
    | rest => return ([part], rest)

def readPlain (most : Nat) (text : List Char) : Except ReadError (Value × List Char) :=
  match text with
  | '"' :: _ | '\'' :: _ =>
    orMalformed ((readString text).map fun (value, rest) => (.text value, rest))
  | 't' :: 'r' :: 'u' :: 'e' :: rest => .ok (.boolean true, rest)
  | 'f' :: 'a' :: 'l' :: 's' :: 'e' :: rest => .ok (.boolean false, rest)
  | _ =>
    match readMoment text with
    | some moment => orMalformed (moment.map fun (sort, rest) => (.moment sort, rest))
    | none => readNumber most text

def isContainer : Value → Bool
  | .list _ | .table _ => true
  | _ => false

def isClosed (closed : List (List String)) (path : List String) : Bool :=
  closed.any (·.isPrefixOf path)

section Values

variable (allowance : Allowance)

mutual

def readValue : Nat → Nat → List Char → Except ReadError (Value × List Char)
  | 0, _, _ => .error .malformed
  | fuel + 1, room, text =>
    match text with
    | '[' :: rest =>
      if room < allowance.listSteps then .error .nestedTooDeeply
      else do
        let rest ← orMalformed (skipFiller false rest)
        let (items, rest) ← readItems fuel (room - allowance.listSteps) rest
        return (.list items, rest)
    | '\x7b' :: rest =>
      if room < allowance.tableSteps then .error .nestedTooDeeply
      else
        match skipGaps rest with
        | '\x7d' :: rest => .ok (.table [], rest)
        | rest => do
          let (table, rest) ← readFields fuel (room - allowance.tableSteps) [] [] rest
          return (.table table, rest)
    | _ =>
      if room < allowance.plainSteps text then .error .nestedTooDeeply
      else readPlain allowance.digits text
termination_by structural fuel => fuel

/-- The items of a list up to its closing bracket. A comma may stand after the last one. -/
def readItems : Nat → Nat → List Char → Except ReadError (List Value × List Char)
  | 0, _, _ => .error .malformed
  | fuel + 1, room, text =>
    match text with
    | ']' :: rest => .ok ([], rest)
    | _ => do
      let (item, rest) ← readValue fuel room text
      let rest ← orMalformed (skipFiller false rest)
      match rest with
      | ']' :: rest => return ([item], rest)
      | ',' :: rest =>
        let rest ← orMalformed (skipFiller false rest)
        let (items, rest) ← readItems fuel room rest
        return (item :: items, rest)
      | _ => .error .malformed
termination_by structural fuel => fuel

/-- The fields of an inline table up to its closing brace, added to those before them. -/
def readFields : Nat → Nat → List (List String) → Table → List Char →
    Except ReadError (Table × List Char)
  | 0, _, _, _, _ => .error .malformed
  | fuel + 1, room, closed, table, text => do
    let (key, value, rest) ← readPair fuel room text
    let (parents, last) := splitPath key
    if isClosed closed key then .error .malformed
    let table ← orMalformed (changeAt false (addEntry last value) parents table)
    match skipGaps rest with
    | '\x7d' :: rest => return (table, rest)
    | ',' :: rest =>
      readFields fuel room (if isContainer value then key :: closed else closed) table
        (skipGaps rest)
    | _ => .error .malformed
termination_by structural fuel => fuel

def readPair : Nat → Nat → List Char → Except ReadError (List String × Value × List Char)
  | 0, _, _ => .error .malformed
  | fuel + 1, room, text => do
    let (key, rest) ← orMalformed (readKey (fuel + 1) text)
    match rest with
    | '=' :: rest =>
      let (value, rest) ← readValue fuel room (skipGaps rest)
      return (key, value, rest)
    | _ => .error .malformed
termination_by structural fuel => fuel

end

end Values

end PhpLint.Toml
