import PhpLint.Settings.Value
import PhpLint.Toml.Text

/-! Numbers of TOML documents. -/

namespace PhpLint.Toml

open Settings (Value)

/-- Further digits of a number, between which single underscores may stand. -/
def moreDigits (isDigit : Char → Bool) : List Char → List Char × List Char
  | '_' :: c :: rest =>
    if isDigit c then
      let (digits, rest) := moreDigits isDigit rest
      (c :: digits, rest)
    else ([], '_' :: c :: rest)
  | c :: rest =>
    if isDigit c then
      let (digits, rest) := moreDigits isDigit rest
      (c :: digits, rest)
    else ([], c :: rest)
  | [] => ([], [])

def someDigits (isDigit : Char → Bool) : List Char → Option (List Char × List Char)
  | [] => none
  | c :: rest =>
    if isDigit c then
      let (digits, rest) := moreDigits isDigit rest
      some (c :: digits, rest)
    else none

def isDigitOf (base : Nat) (c : Char) : Bool :=
  match hexValue? c with
  | some value => value < base
  | none => false

def natOfBase (base : Nat) (digits : List Char) : Nat :=
  digits.foldl (fun value c => base * value + (hexValue? c).getD 0) 0

def readMarked : List Char → Option (Value × List Char)
  | '0' :: 'x' :: rest => digitsIn 16 rest
  | '0' :: 'b' :: rest => digitsIn 2 rest
  | '0' :: 'o' :: rest => digitsIn 8 rest
  | _ => none
where
  digitsIn (base : Nat) (text : List Char) : Option (Value × List Char) :=
    (someDigits (isDigitOf base) text).map fun (digits, rest) =>
      (.integer (Int.ofNat (natOfBase base digits)), rest)

/-- The digits before the point: a zero alone, or digits that start with none. -/
def wholeDigits : List Char → Option (List Char × List Char)
  | '0' :: rest => some (['0'], rest)
  | text => someDigits Char.isDigit text

def fractionDigits : List Char → List Char × List Char
  | '.' :: rest => (someDigits Char.isDigit rest).getD ([], '.' :: rest)
  | text => ([], text)

def exponentDigits (text : List Char) : Option ((Bool × List Char) × List Char) :=
  match text with
  | [] => none
  | c :: rest =>
    if c = 'e' ∨ c = 'E' then
      let (negative, rest) := Binary64.takeSign rest
      (someDigits Char.isDigit rest).map fun (digits, rest) => ((negative, digits), rest)
    else none

def signed (negative : Bool) (value : Nat) : Int :=
  if negative then -Int.ofNat value else Int.ofNat value

def decimalInteger (most : Nat) (negative : Bool) (digits : List Char) : Except ReadError Value :=
  if most < digits.length then .error (.oversizedInteger most digits.length)
  else .ok (.integer (signed negative (natOfBase 10 digits)))

def decimalFloat (negative : Bool) (whole fraction : List Char) (exponent : Int) : Value :=
  .float (.ofDecimal negative (natOfBase 10 (whole ++ fraction))
    (exponent - Int.ofNat fraction.length))

/-- An integer of at most so many digits or, with a fraction or an exponent, a float. -/
def readDecimal (most : Nat) (text : List Char) : Option (Except ReadError Value × List Char) := do
  let (negative, rest) := Binary64.takeSign text
  let (whole, rest) ← wholeDigits rest
  let (fraction, rest) := fractionDigits rest
  match exponentDigits rest with
  | some ((negativeExponent, exponent), rest) =>
    let exponent := signed negativeExponent (natOfBase 10 exponent)
    return (.ok (decimalFloat negative whole fraction exponent), rest)
  | none =>
    if fraction = [] then return (decimalInteger most negative whole, rest)
    else return (.ok (decimalFloat negative whole fraction 0), rest)

def readNamed (text : List Char) : Option (Value × List Char) :=
  let (negative, rest) := Binary64.takeSign text
  match rest with
  | 'i' :: 'n' :: 'f' :: rest => some (.float (.infinity negative), rest)
  | 'n' :: 'a' :: 'n' :: rest => some (.float .nan, rest)
  | _ => none

def readNumber (most : Nat) (text : List Char) : Except ReadError (Value × List Char) :=
  match readMarked text with
  | some result => .ok result
  | none =>
    match readDecimal most text with
    | some (value, rest) => value.map (·, rest)
    | none => orMalformed (readNamed text)

end PhpLint.Toml
