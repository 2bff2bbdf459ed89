import PhpLint.Number.Binary64

/-! General decimal notation: a fixed count of significant digits, positional for moderate exponents
and scientific for the others, without trailing zeros. -/

namespace PhpLint.Number.General

open Binary64

def significantDigits : Nat := 6

/-- Exponents from here up to the count of significant digits are written positionally. -/
def leastPositional : Int := -4

def leadingExponent (num den : Nat) : Int :=
  let shift : Int := Int.ofNat (decimalWidth den) - Int.ofNat (decimalWidth num)
  let (n, d) := scaled num den 10 shift
  if d ≤ n then -shift else -shift - 1

/-- The significant digits of `num / den`, rounded half to even, and the exponent of the first. -/
def digits (num den : Nat) : List Char × Int :=
  let exponent := leadingExponent num den
  let (n, d) := scaled num den 10 (Int.ofNat significantDigits - 1 - exponent)
  let rounded := roundHalfEven n d
  if rounded = Nat.pow 10 significantDigits then
    (Nat.toDigits 10 (Nat.pow 10 (significantDigits - 1)), exponent + 1)
  else (Nat.toDigits 10 rounded, exponent)

def dropTrailingZeros (text : List Char) : List Char :=
  (text.reverse.dropWhile (· = '0')).reverse

def fractionPart (text : List Char) : List Char :=
  match dropTrailingZeros text with
  | [] => []
  | kept => '.' :: kept

/-- An exponent has a sign and at least two digits. -/
def exponentPart (exponent : Int) : List Char :=
  let width := Nat.toDigits 10 exponent.natAbs
  'e' :: (if exponent < 0 then '-' else '+') :: (List.replicate (2 - width.length) '0' ++ width)

def positive (num den : Nat) : List Char :=
  let (ds, exponent) := digits num den
  if exponent < leastPositional ∨ Int.ofNat significantDigits ≤ exponent then
    ds.take 1 ++ fractionPart (ds.drop 1) ++ exponentPart exponent
  else if exponent < 0 then
    '0' :: fractionPart (List.replicate (exponent.natAbs - 1) '0' ++ ds)
  else
    ds.take (exponent.natAbs + 1) ++ fractionPart (ds.drop (exponent.natAbs + 1))

end Number.General

open Number.General

def Binary64.general : Binary64 → String
  | .nan => "nan"
  | .infinity negative => if negative then "-inf" else "inf"
  | .finite negative significand exponent =>
    let text :=
      if significand = 0 then ['0']
      else
        let (n, d) := scaled significand 1 2 exponent
        positive n d
    String.ofList (if negative then '-' :: text else text)

end PhpLint
