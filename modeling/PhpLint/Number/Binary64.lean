/-! Double-precision numbers held exactly, with reading of decimal text to the nearest one. -/

namespace PhpLint

/-- A finite number is `± significand * 2 ^ exponent` with `significand < 2 ^ 53`; below `2 ^ 52` the
exponent is the least one, so that every number has one form for each sign. -/
inductive Binary64 where
  | nan
  | infinity (negative : Bool)
  | finite (negative : Bool) (significand : Nat) (exponent : Int)
  deriving DecidableEq, Repr

namespace Binary64

def leastExponent : Int := -1074

def greatestExponent : Int := 971

def leastFull : Nat := Nat.pow 2 52

def zero (negative : Bool) : Binary64 := .finite negative 0 leastExponent

def isNan : Binary64 → Bool
  | .nan => true
  | _ => false

def isZero : Binary64 → Bool
  | .finite _ 0 _ => true
  | _ => false

/-- Numeric equality: no NaN equals anything, and the two zeros are equal. -/
def numericEq (x y : Binary64) : Bool :=
  !x.isNan && ((x.isZero && y.isZero) || decide (x = y))

def roundHalfEven (num den : Nat) : Nat :=
  let quotient := num / den
  let remainder := num % den
  if 2 * remainder < den then quotient
  else if den < 2 * remainder then quotient + 1
  else quotient + quotient % 2

def scaled (num den base : Nat) (exponent : Int) : Nat × Nat :=
  if exponent < 0 then (num, den * base.pow exponent.natAbs)
  else (num * base.pow exponent.natAbs, den)

/-- The exponent at which `num / den` has 53 binary digits, or the least one. -/
def binaryExponent (num den : Nat) : Int :=
  let guess : Int := Int.ofNat num.log2 - Int.ofNat den.log2 - 52
  let (n, d) := scaled num den 2 (-guess)
  let exponent := if n / d < leastFull then guess - 1 else guess
  if exponent < leastExponent then leastExponent else exponent

def ofRatio (negative : Bool) (num den : Nat) : Binary64 :=
  if num = 0 then zero negative
  else
    let exponent := binaryExponent num den
    let (n, d) := scaled num den 2 (-exponent)
    let rounded := roundHalfEven n d
    let (significand, exponent) :=
      if rounded = 2 * leastFull then (leastFull, exponent + 1) else (rounded, exponent)
    if greatestExponent < exponent then .infinity negative else .finite negative significand exponent

def decimalWidth (n : Nat) : Nat := (Nat.toDigits 10 n).length

/-- The number nearest to `digits * 10 ^ exponent`. Magnitudes far outside the range are decided by
their width alone. -/
def ofDecimal (negative : Bool) (digits : Nat) (exponent : Int) : Binary64 :=
  let top := Int.ofNat (decimalWidth digits) + exponent
  if digits = 0 ∨ top < -330 then zero negative
  else if 310 < top then .infinity negative
  else
    let (n, d) := scaled digits 1 10 exponent
    ofRatio negative n d

def digitValue (c : Char) : Nat := c.toNat - '0'.toNat

def natOfDigits (digits : List Char) : Nat :=
  digits.foldl (fun value c => 10 * value + digitValue c) 0

def takeSign : List Char → Bool × List Char
  | '-' :: rest => (true, rest)
  | '+' :: rest => (false, rest)
  | text => (false, text)

def readExponent? : List Char → Option Int
  | [] => some 0
  | c :: rest =>
    let (negative, digits) := takeSign rest
    if (c = 'e' ∨ c = 'E') ∧ digits ≠ [] ∧ digits.all Char.isDigit then
      some (if negative then -Int.ofNat (natOfDigits digits) else Int.ofNat (natOfDigits digits))
    else none

def readUnsigned? (negative : Bool) (text : List Char) : Option Binary64 :=
  let whole := text.takeWhile Char.isDigit
  let (fraction, rest) :=
    match text.dropWhile Char.isDigit with
    | '.' :: rest => (rest.takeWhile Char.isDigit, rest.dropWhile Char.isDigit)
    | rest => ([], rest)
  if whole = [] then none
  else
    (readExponent? rest).map fun exponent =>
      ofDecimal negative (natOfDigits (whole ++ fraction)) (exponent - Int.ofNat fraction.length)

/-- Reads `nan`, `inf` or a decimal text, each with an optional sign. -/
def read? (text : String) : Option Binary64 :=
  let (negative, rest) := takeSign text.toList
  if rest = "nan".toList then some .nan
  else if rest = "inf".toList then some (.infinity negative)
  else readUnsigned? negative rest

def toInt? : Binary64 → Option Int
  | .finite negative significand exponent =>
    let (n, d) := scaled significand 1 2 exponent
    if n % d = 0 then
      some (if negative then -Int.ofNat (n / d) else Int.ofNat (n / d))
    else none
  | _ => none

end Binary64

end PhpLint
