/-! # Line breaks

Texts come with three kinds of line break: a line feed, a carriage return, and the pair of both.
`normalizeBreaks` leaves only line feeds. It works in two passes, pairs first.
-/

namespace NcLang.Text

/-- Replaces each carriage return followed by a line feed by the line feed. -/
def joinPairs : List Char → List Char
  | '\r' :: '\n' :: rest => '\n' :: joinPairs rest
  | c :: rest => c :: joinPairs rest
  | [] => []

/-- Replaces each carriage return by a line feed. -/
def replaceReturns (chars : List Char) : List Char :=
  chars.map fun c => if c = '\r' then '\n' else c

/-- The text with every line break written as one line feed. -/
def normalizeBreaks (text : String) : String :=
  String.ofList (replaceReturns (joinPairs text.toList))

/-- The first line of a text, and the further ones; a line feed divides two lines. -/
def lines : List Char → List Char × List (List Char)
  | [] => ([], [])
  | c :: rest =>
    let (first, further) := lines rest
    if c = '\n' then ([], first :: further) else (c :: first, further)

end NcLang.Text
