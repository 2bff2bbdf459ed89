/-! Console markup: tags in square brackets, and the escaping that keeps plain text from being read as
tags. -/

namespace PhpLint.Text

def closesBracket : List Char → Bool
  | [] => false
  | c :: rest => c = ']' || (c ≠ '[' && closesBracket rest)

def startsTag (c : Char) : Bool := ('a' ≤ c && c ≤ 'z') || c = '#' || c = '/' || c = '@'

def opensTag : List Char → Bool
  | [] => false
  | c :: rest => startsTag c && closesBracket rest

/-- Escapes a text that follows `slashes` backslashes: before a tag these are doubled and one more is
set. -/
def escapeTags (slashes : Nat) : List Char → List Char
  | [] => List.replicate slashes '\\'
  | c :: rest =>
    if c = '\\' then escapeTags (slashes + 1) rest
    else
      let count := if c = '[' && opensTag rest then 2 * slashes + 1 else slashes
      List.replicate count '\\' ++ c :: escapeTags 0 rest

/-- A single backslash at the end would escape what is set behind the text. -/
def escapeEnd (text : List Char) : List Char :=
  match text.reverse with
  | ['\\'] => text ++ ['\\']
  | '\\' :: c :: _ => if c = '\\' then text else text ++ ['\\']
  | _ => text

def escapeMarkup (text : String) : String := String.ofList (escapeEnd (escapeTags 0 text.toList))

end PhpLint.Text
