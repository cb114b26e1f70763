import NcLang.Source

/-! # Tokens

A token is a lexeme, that is a kind and perhaps a value, with a location. The lexer only makes
tokens whose value suits their kind, but the two are independent fields, and the parser takes any
combination: keywords are told by the value alone, symbols by the kind alone.
-/

namespace NcLang

/-- The reserved words. -/
inductive Keyword where
  | i32
  | fn
  | var
  deriving DecidableEq

namespace Keyword

/-- Every keyword. -/
def all : List Keyword :=
  [.i32, .fn, .var]

/-- The word as it stands in a program. -/
def spelling : Keyword → String
  | .i32 => "i32"
  | .fn => "fn"
  | .var => "var"

/-- The keyword that is spelled this way. -/
def ofSpelling? (word : String) : Option Keyword :=
  all.find? fun keyword => keyword.spelling = word

end Keyword

/-- The classes of tokens. -/
inductive TokenKind where
  | eof
  | plus
  | star
  | int
  | keyword
  | identifier
  | leftParen
  | rightParen
  | leftBracket
  | rightBracket
  | leftBrace
  | rightBrace
  | semicolon
  | equals
  deriving DecidableEq

namespace TokenKind

/-- Every kind. -/
def all : List TokenKind :=
  [.eof, .plus, .star, .int, .keyword, .identifier, .leftParen, .rightParen, .leftBracket,
    .rightBracket, .leftBrace, .rightBrace, .semicolon, .equals]

/-- The character a token of this kind consists of, for the kinds that are one symbol. -/
def symbol? : TokenKind → Option Char
  | .plus => some '+'
  | .star => some '*'
  | .leftParen => some '('
  | .rightParen => some ')'
  | .leftBracket => some '['
  | .rightBracket => some ']'
  | .leftBrace => some '\x7b'
  | .rightBrace => some '\x7d'
  | .semicolon => some ';'
  | .equals => some '='
  | .eof | .int | .keyword | .identifier => none

/-- The kind whose symbol the character is. -/
def ofSymbol? (c : Char) : Option TokenKind :=
  all.find? fun kind => kind.symbol? = some c

/-- The name of the kind in token listings. -/
def name : TokenKind → String
  | .eof => "Eof"
  | .plus => "Plus"
  | .star => "Star"
  | .int => "Int"
  | .keyword => "Keyword"
  | .identifier => "Identifier"
  | .leftParen => "LParen"
  | .rightParen => "RParen"
  | .leftBracket => "LBracket"
  | .rightBracket => "RBracket"
  | .leftBrace => "LBrace"
  | .rightBrace => "RBrace"
  | .semicolon => "Semicolon"
  | .equals => "Equals"

/-- What a diagnostic calls a token of this kind. -/
def describe : TokenKind → String
  | .eof => "end of input"
  | .plus => "'+'"
  | .star => "'*'"
  | .int => "an integer"
  | .keyword => "a keyword"
  | .identifier => "an identifier"
  | .leftParen => "'('"
  | .rightParen => "')'"
  | .leftBracket => "'['"
  | .rightBracket => "']'"
  | .leftBrace => "'\x7b'"
  | .rightBrace => "'\x7d'"
  | .semicolon => "';'"
  | .equals => "'='"

end TokenKind

/-- What a token stands for beyond its kind. -/
inductive TokenValue where
  | int (value : Int64)
  | keyword (word : Keyword)
  | name (text : String)
  deriving DecidableEq

/-- The value as it is written in a program. -/
def TokenValue.display : TokenValue → String
  | .int value => Text.integer value.toInt
  | .keyword word => word.spelling
  | .name text => text

/-- A token without its place: all that the grammar looks at. -/
structure Lexeme where
  kind : TokenKind
  value : Option TokenValue := none
  deriving DecidableEq

namespace Lexeme

/-- Whether the lexeme stands for this keyword. Its kind is not consulted. -/
def isKeyword (lexeme : Lexeme) (word : Keyword) : Bool :=
  lexeme.value = some (.keyword word)

/-- The name that an identifier stands for. -/
def name? (lexeme : Lexeme) : Option String :=
  match lexeme.kind, lexeme.value with
  | .identifier, some (.name text) => some text
  | _, _ => none

/-- The number that an integer stands for. -/
def int? (lexeme : Lexeme) : Option Int64 :=
  match lexeme.kind, lexeme.value with
  | .int, some (.int value) => some value
  | _, _ => none

/-- Whether two lexemes are of one kind and, where both have a value, of one value. -/
def agrees (first second : Lexeme) : Bool :=
  first.kind = second.kind &&
    match first.value, second.value with
    | some a, some b => a = b
    | _, _ => true

end Lexeme

/-- A lexeme and where it stands. -/
structure Token (α : Type) extends Lexeme where
  loc : α
  deriving DecidableEq

/-- The token's line in a listing: kind, value if any, and byte indices. -/
def Token.dump (token : Token Span) : String :=
  "Token(" ++ token.kind.name ++ ", " ++
    (match token.value with
      | some value => value.display ++ ", "
      | none => "") ++
    token.loc.display ++ ")"

end NcLang
