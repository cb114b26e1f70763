import NcLang.Source
import NcLang.Tree.Draft

/-! # From tokens to a program tree

A program ends with an end-of-input token. A list of tokens that has none at its end is given one
that is empty and stands right after the last token.
-/

namespace NcLang

/-- The end-of-input token that stands right after some tokens. -/
def Token.endAfter (tokens : List (Token Span)) : Token Span where
  kind := .eof
  loc :=
    match tokens.getLast? with
    | some last => last.loc.stop.emptySpan
    | none => (Pos.origin { text := "", path := "" }).emptySpan

/-- The tokens with an end-of-input token at their end. -/
def Token.terminate (tokens : List (Token Span)) : List (Token Span) :=
  if tokens.getLast?.any (·.kind = .eof) then tokens else tokens ++ [Token.endAfter tokens]

/-- The tree of a whole program. -/
def Scope.parse (tokens : List (Token Span)) :
    Except (Located Span GrammarFault) (Scope Span) :=
  let terminated := Token.terminate tokens
  let last := terminated.getLastD (Token.endAfter tokens)
  ({} : Draft Span).run last terminated

end NcLang
