import NcLang.Text.CharClass
import NcLang.Token

/-! # From text to tokens

A text is a sequence of words with white space around them. A word is a run of digits, an alphabetic
character with the letters, numbers and underscores after it, or one character alone; each run is as
long as it can be (`continues`). `Lexeme.ofWord` says which token a word is, and `Token.scan` walks
over a text and gives each word its place. The list of tokens ends with an empty token at the end of
the text.
-/

namespace NcLang

/-- Why a word is no token. -/
inductive LexicalFault where
  | unexpectedChar (c : Char)
  | intOutOfRange
  deriving DecidableEq

/-- The wording of the fault in diagnostics. -/
def LexicalFault.message : LexicalFault → String
  | .unexpectedChar c => "unexpected character " ++ Text.Quoted.char c
  | .intOutOfRange => "integer literal out of range"

namespace Lexeme

/-- The first number that a signed word of 64 bits cannot hold. -/
def intLimit : Nat :=
  0x8000000000000000

/-- The token that a run of digits is. Leading zeros count for nothing. -/
def ofDigits (digits : List Char) : Except LexicalFault Lexeme :=
  let value := Nat.ofDigitChars 10 digits 0
  if value < intLimit then
    .ok { kind := .int, value := some (.int (Int64.ofNat value)) }
  else
    .error .intOutOfRange

/-- The token that a run of letters is: a keyword if it is spelled like one. -/
def ofLetters (letters : List Char) : Lexeme :=
  let word := String.ofList letters
  match Keyword.ofSpelling? word with
  | some keyword => { kind := .keyword, value := some (.keyword keyword) }
  | none => { kind := .identifier, value := some (.name word) }

/-- The token that a word is, given by its first character and the ones after it. -/
def ofWord (first : Char) (more : List Char) : Except LexicalFault Lexeme :=
  if first.isDigit then
    ofDigits (first :: more)
  else if Text.isAlphabetic first then
    .ok (ofLetters (first :: more))
  else
    match TokenKind.ofSymbol? first with
    | some kind => .ok { kind }
    | none => .error (.unexpectedChar first)

end Lexeme

namespace Token

/-- Whether a character goes on with the word that starts with `first`. -/
def continues (first c : Char) : Bool :=
  if first.isDigit then c.isDigit
  else if Text.isAlphabetic first then Text.isAlphanumeric c || c = '_'
  else false

/-- Dropping from the front makes no list longer. -/
theorem length_dropWhile_le (drops : Char → Bool) (chars : List Char) :
    (chars.dropWhile drops).length ≤ chars.length :=
  (List.dropWhile_sublist drops).length_le

/-- The tokens of the characters from a place on, or the first word that is no token. -/
def scan (pos : Pos) : List Char → Except (Located Span LexicalFault) (List (Token Span))
  | [] => .ok [{ kind := .eof, loc := pos.emptySpan }]
  | first :: rest =>
    if Text.isWhiteSpace first then
      scan (pos.advance first) rest
    else
      let more := rest.takeWhile (continues first)
      let loc : Span := { start := pos, stop := pos.after (first :: more) }
      match Lexeme.ofWord first more with
      | .error cause => .error { loc, cause }
      | .ok lexeme =>
        (scan loc.stop (rest.dropWhile (continues first))).map
          fun later => { toLexeme := lexeme, loc } :: later
termination_by chars => chars.length
decreasing_by
  · exact Nat.lt_succ_self rest.length
  · exact Nat.lt_succ_of_le (length_dropWhile_le (continues first) rest)

end Token

/-- The tokens of a source. -/
def Source.tokens (source : Source) : Except (Located Span LexicalFault) (List (Token Span)) :=
  Token.scan (Pos.origin source) source.text.toList

end NcLang
