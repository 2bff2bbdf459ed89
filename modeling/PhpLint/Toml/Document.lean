import PhpLint.Settings.Load
import PhpLint.Toml.Value

/-! TOML documents. -/

namespace PhpLint.Toml

open Settings (Table)

/-- What has been read so far: the tables, the header in force, and three sorts of paths that may no
longer be opened. Those `opened` had a header, or a dotted key in an earlier section; those `dotted` have
dotted keys of this section lead through them; those `closed` hold values given inline. -/
structure Document where
  table : Table
  header : List String
  opened : List (List String)
  dotted : List (List String)
  closed : List (List String)

namespace Document

def empty : Document := ⟨[], [], [], [], []⟩

def leadingPaths (header key : List String) : List (List String) :=
  ((List.range key.length).drop 1).map fun count => header ++ key.take count

def addPair (doc : Document) (key : List String) (value : Settings.Value) : Option Document := do
  let paths := leadingPaths doc.header key
  let (parents, last) := splitPath key
  if paths.any doc.opened.contains || isClosed doc.closed (doc.header ++ parents) then none
  let table ← changeAt true (addEntry last value) (doc.header ++ parents) doc.table
  return { doc with
    table := table
    dotted := paths ++ doc.dotted
    closed := if isContainer value then (doc.header ++ key) :: doc.closed else doc.closed }

def endSection (doc : Document) : Document :=
  { doc with opened := doc.dotted ++ doc.opened, dotted := [] }

def openTable (doc : Document) (key : List String) : Option Document := do
  if doc.opened.contains key || isClosed doc.closed key then none
  let table ← changeAt true some key doc.table
  return { doc with table := table, header := key, opened := key :: doc.opened }

/-- Opens the section of a new table at the end of a list. What was said of the list's last table
does not hold for this one. -/
def openListItem (doc : Document) (key : List String) : Option Document := do
  if isClosed doc.closed key then none
  let (parents, last) := splitPath key
  let table ← changeAt true (appendTable last) parents doc.table
  return { doc with
    table := table
    header := key
    opened := key :: doc.opened.filter (!key.isPrefixOf ·)
    closed := doc.closed.filter (!key.isPrefixOf ·) }

def readHeader (doc : Document) (text : List Char) : Option (Document × List Char) := do
  let fuel := text.length + 1
  match text with
  | '[' :: '[' :: rest =>
    let (key, rest) ← readKey fuel (skipGaps rest)
    let doc ← doc.endSection.openListItem key
    match rest with
    | ']' :: ']' :: rest => return (doc, skipGaps rest)
    | _ => none
  | '[' :: rest =>
    let (key, rest) ← readKey fuel (skipGaps rest)
    let doc ← doc.endSection.openTable key
    match rest with
    | ']' :: rest => return (doc, skipGaps rest)
    | _ => none
  | _ => none

/-- Fuel for a value: no reader is called more than twice without a character being taken. -/
def valueFuel (text : List Char) : Nat := 2 * text.length + 2

def readStatement (allowance : Allowance) (doc : Document) (text : List Char) :
    Except ReadError (Document × List Char) :=
  match text with
  | '[' :: _ => orMalformed (doc.readHeader text)
  | '#' :: _ => .ok (doc, text)
  | _ => do
    let (key, value, rest) ← readPair allowance (valueFuel text) allowance.room text
    let doc ← orMalformed (doc.addPair key value)
    return (doc, skipGaps rest)

def readLines (allowance : Allowance) : Nat → Document → List Char → Except ReadError Document
  | 0, _, _ => .error .malformed
  | fuel + 1, doc, text =>
    match skipGaps text with
    | [] => .ok doc
    | '\n' :: rest => readLines allowance fuel doc rest
    | text => do
      let (doc, rest) ← doc.readStatement allowance text
      let rest ← orMalformed (skipComment rest)
      match rest with
      | [] => return doc
      | '\n' :: rest => readLines allowance fuel doc rest
      | _ => .error .malformed

end Document

def joinLineEnds : List Char → List Char
  | '\r' :: '\n' :: rest => '\n' :: joinLineEnds rest
  | c :: rest => c :: joinLineEnds rest
  | [] => []

def read (allowance : Allowance) (text : String) : Except ReadError Table :=
  let chars := joinLineEnds text.toList
  (Document.readLines allowance (chars.length + 1) .empty chars).map Document.table

/-- Reads settings files as TOML documents. -/
def reader (allowance : Allowance) (complaint : String → String) : Settings.Reader :=
  ⟨read allowance, complaint⟩

end PhpLint.Toml
