import PhpLint.Text.CaseTable
import PhpLint.Text.Cased

/-! Upper and lower case, with the mappings that give several characters, and blanks, which are cut off
both ends of a text. -/

namespace PhpLint.Text

/-- The image of a character: an expansion if it has one, else the run that covers it, else itself. -/
def mapCase (runs : List CaseRun) (expansions : List (Nat × List Nat)) (c : Char) : List Char :=
  match expansions.lookup c.toNat with
  | some codes => codes.map Char.ofNat
  | none =>
    match runs.find? (·.covers c.toNat) with
    | some run => [Char.ofNat (run.image c.toNat)]
    | none => [c]

def upperChar (c : Char) : List Char := mapCase upperRuns upperExpansions c

def lowerChar (c : Char) : List Char := mapCase lowerRuns lowerExpansions c

/-- Whether the first character that is not passed over is a cased letter. -/
def casedAhead (text : List Char) : Bool :=
  match text.dropWhile isIgnorable with
  | [] => false
  | c :: _ => isCased c

/-- The lower case of a text whose preceding characters, last first, are `before`. A capital sigma
that ends a word has a form of its own. -/
def lowerAfter (before : List Char) : List Char → List Char
  | [] => []
  | c :: rest =>
    let image :=
      if c = 'Σ' then [if casedAhead before && !casedAhead rest then 'ς' else 'σ']
      else lowerChar c
    image ++ lowerAfter (c :: before) rest

def lower (text : String) : String := String.ofList (lowerAfter [] text.toList)

def blankRanges : List (Nat × Nat) :=
  [(0x9, 0xd), (0x1c, 0x20), (0x85, 0x85), (0xa0, 0xa0), (0x1680, 0x1680), (0x2000, 0x200a),
    (0x2028, 0x2029), (0x202f, 0x202f), (0x205f, 0x205f), (0x3000, 0x3000)]

def isBlank (c : Char) : Bool :=
  blankRanges.any fun (first, last) => first ≤ c.toNat && c.toNat ≤ last

def stripChars (text : List Char) : List Char :=
  ((text.dropWhile isBlank).reverse.dropWhile isBlank).reverse

def strip (text : String) : String := String.ofList (stripChars text.toList)

end PhpLint.Text
