import PhpLint.Settings.Value

/-! Dates and times of TOML documents. -/

namespace PhpLint.Toml

open Settings (Moment)

def twoDigits (least greatest : Nat) : List Char → Option (Nat × List Char)
  | tens :: ones :: rest =>
    if tens.isDigit ∧ ones.isDigit then
      let value := 10 * (tens.toNat - '0'.toNat) + (ones.toNat - '0'.toNat)
      if least ≤ value ∧ value ≤ greatest then some (value, rest) else none
    else none
  | _ => none

def expect (c : Char) : List Char → Option (List Char)
  | [] => none
  | first :: rest => if first = c then some rest else none

def skipFraction : List Char → List Char
  | '.' :: c :: rest => if c.isDigit then rest.dropWhile Char.isDigit else '.' :: c :: rest
  | text => text

def skipTime (text : List Char) : Option (List Char) := do
  let (_, rest) ← twoDigits 0 23 text
  let rest ← expect ':' rest
  let (_, rest) ← twoDigits 0 59 rest
  let rest ← expect ':' rest
  let (_, rest) ← twoDigits 0 59 rest
  return skipFraction rest

def skipOffset (text : List Char) : List Char :=
  match text with
  | [] => []
  | c :: rest =>
    if c = 'Z' ∨ c = 'z' then rest
    else if c = '+' ∨ c = '-' then (skipClock rest).getD text
    else text
where
  skipClock (text : List Char) : Option (List Char) := do
    let (_, rest) ← twoDigits 0 23 text
    let rest ← expect ':' rest
    let (_, rest) ← twoDigits 0 59 rest
    return rest

/-- The digits of a date, with month and day within their widest bounds. -/
def readDate (text : List Char) : Option ((Nat × Nat × Nat) × List Char) := do
  let (century, rest) ← twoDigits 0 99 text
  let (year, rest) ← twoDigits 0 99 rest
  let rest ← expect '-' rest
  let (month, rest) ← twoDigits 1 12 rest
  let rest ← expect '-' rest
  let (day, rest) ← twoDigits 1 31 rest
  return ((100 * century + year, month, day), rest)

def isLeapYear (year : Nat) : Bool := year % 4 = 0 && (year % 100 ≠ 0 || year % 400 = 0)

def daysInMonth (year month : Nat) : Nat :=
  if month = 2 then (if isLeapYear year then 29 else 28)
  else if month = 4 ∨ month = 6 ∨ month = 9 ∨ month = 11 then 30
  else 31

/-- Whether the calendar has the date; it starts with the year one. -/
def isDate : Nat × Nat × Nat → Bool
  | (year, month, day) => 1 ≤ year && day ≤ daysInMonth year month

def readAfterDate (text : List Char) : Moment × List Char :=
  match text with
  | [] => (.date, [])
  | c :: rest =>
    if c = 'T' ∨ c = 't' ∨ c = ' ' then
      match skipTime rest with
      | some rest => (.dateTime, skipOffset rest)
      | none => (.date, text)
    else (.date, text)

/-- A moment that may stand at the start of a text: none, or one that is or is not valid. -/
def readMoment (text : List Char) : Option (Option (Moment × List Char)) :=
  match readDate text with
  | some (date, rest) => some (if isDate date then some (readAfterDate rest) else none)
  | none => (skipTime text).map fun rest => some (.time, rest)

end PhpLint.Toml
