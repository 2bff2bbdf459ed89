/-! Strings, comments and blanks of TOML documents, and what can be wrong with a document. -/

namespace PhpLint.Toml

/-- Besides bad form: a decimal integer has more digits than are read, or lists and inline tables stand
in one another more deeply than is read. -/
inductive ReadError where
  | malformed
  | oversizedInteger (most digits : Nat)
  | nestedTooDeeply
  deriving DecidableEq, Repr

def orMalformed {α : Type} : Option α → Except ReadError α
  | none => .error .malformed
  | some result => .ok result

def isGap (c : Char) : Bool := c = ' ' || c = '\t'

def isControl (c : Char) : Bool := c.toNat < 0x20 || c.toNat = 0x7f

/-- Whether a character may stand in a comment or in a string on one line. -/
def isLineChar (c : Char) : Bool := !isControl c || c = '\t'

def skipGaps (text : List Char) : List Char := text.dropWhile isGap

def skipComment : List Char → Option (List Char)
  | '#' :: rest =>
    if (rest.takeWhile (· ≠ '\n')).all isLineChar then some (rest.dropWhile (· ≠ '\n')) else none
  | text => some text

/-- Skips blanks, line ends and comments; the flag says whether a comment is open. -/
def skipFiller : Bool → List Char → Option (List Char)
  | _, [] => some []
  | false, c :: rest =>
    if isGap c || c = '\n' then skipFiller false rest
    else if c = '#' then skipFiller true rest
    else some (c :: rest)
  | true, c :: rest =>
    if c = '\n' then skipFiller false rest
    else if isLineChar c then skipFiller true rest
    else none

def hexValue? (c : Char) : Option Nat :=
  if '0' ≤ c ∧ c ≤ '9' then some (c.toNat - '0'.toNat)
  else if 'a' ≤ c ∧ c ≤ 'f' then some (c.toNat - 'a'.toNat + 10)
  else if 'A' ≤ c ∧ c ≤ 'F' then some (c.toNat - 'A'.toNat + 10)
  else none

def scalar? (code : Nat) : Option Char := if code.isValidChar then some (Char.ofNat code) else none

def escaped? : Char → Option Char
  | 'b' => some '\x08'
  | 't' => some '\t'
  | 'n' => some '\n'
  | 'f' => some '\x0c'
  | 'r' => some '\r'
  | '"' => some '"'
  | '\\' => some '\\'
  | _ => none

/-- Where the reading of a quoted string stands: digits of a code point may be due, or blanks skipped
after a backslash at the end of a line. -/
inductive QuoteState where
  | plain
  | escape
  | code (due value : Nat)
  | fold (lineEnded : Bool)

/-- Folding may end without taking a character. -/
def QuoteState.rank : QuoteState → Nat
  | .fold _ => 1
  | _ => 0

def prepend (c : Char) : Option (List Char × List Char) → Option (List Char × List Char)
  | none => none
  | some (text, rest) => some (c :: text, rest)

def afterTwo (quote : Char) : List Char → Option (List Char)
  | second :: third :: rest => if second = quote ∧ third = quote then some rest else none
  | _ => none

def readQuoted (block : Bool) : QuoteState → List Char → Option (List Char × List Char)
  | _, [] => none
  | .plain, c :: rest =>
    if c = '"' then
      if block then
        match afterTwo c rest with
        | some outside => some ([], outside)
        | none => prepend c (readQuoted block .plain rest)
      else some ([], rest)
    else if c = '\\' then readQuoted block .escape rest
    else if isLineChar c || (block && c = '\n') then prepend c (readQuoted block .plain rest)
    else none
  | .escape, c :: rest =>
    match escaped? c with
    | some image => prepend image (readQuoted block .plain rest)
    | none =>
      if c = 'u' then readQuoted block (.code 4 0) rest
      else if c = 'U' then readQuoted block (.code 8 0) rest
      else if block && c = '\n' then readQuoted block (.fold true) rest
      else if block && isGap c then readQuoted block (.fold false) rest
      else none
  | .code due value, c :: rest =>
    match hexValue? c with
    | none => none
    | some digit =>
      let value := 16 * value + digit
      if due ≤ 1 then
        match scalar? value with
        | none => none
        | some image => prepend image (readQuoted block .plain rest)
      else readQuoted block (.code (due - 1) value) rest
  | .fold lineEnded, c :: rest =>
    if isGap c then readQuoted block (.fold lineEnded) rest
    else if c = '\n' then readQuoted block (.fold true) rest
    else if lineEnded then readQuoted block .plain (c :: rest)
    else none
termination_by state text => 2 * text.length + state.rank
decreasing_by all_goals simp [QuoteState.rank] <;> omega

def readLiteral (block : Bool) : List Char → Option (List Char × List Char)
  | [] => none
  | c :: rest =>
    if c = '\'' then
      if block then
        match afterTwo c rest with
        | some outside => some ([], outside)
        | none => prepend c (readLiteral block rest)
      else some ([], rest)
    else if isLineChar c || (block && c = '\n') then prepend c (readLiteral block rest)
    else none

/-- Up to two more quotes right after the closing ones belong to the string. -/
def takeExtraQuotes (quote : Char) (text rest : List Char) : List Char × List Char :=
  let extra := (rest.take 2).takeWhile (· = quote)
  (text ++ extra, rest.drop extra.length)

def dropFirstLineEnd : List Char → List Char
  | '\n' :: rest => rest
  | text => text

def readString : List Char → Option (String × List Char)
  | '"' :: '"' :: '"' :: rest =>
    (readQuoted true .plain (dropFirstLineEnd rest)).map fun (text, rest) =>
      let (text, rest) := takeExtraQuotes '"' text rest
      (String.ofList text, rest)
  | '\'' :: '\'' :: '\'' :: rest =>
    (readLiteral true (dropFirstLineEnd rest)).map fun (text, rest) =>
      let (text, rest) := takeExtraQuotes '\'' text rest
      (String.ofList text, rest)
  | '"' :: rest =>
    (readQuoted false .plain rest).map fun (text, rest) => (String.ofList text, rest)
  | '\'' :: rest => (readLiteral false rest).map fun (text, rest) => (String.ofList text, rest)
  | _ => none

end PhpLint.Toml
