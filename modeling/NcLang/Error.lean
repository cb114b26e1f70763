import NcLang.Emission
import NcLang.Output.IoError
import NcLang.Token.Lexer
import NcLang.Tree.Draft

/-! # Errors

All the ways in which a compilation can fail, with the message for each. A fault in the tree that no
program text leads to is an internal error: it shows a defect of the compiler itself.
-/

namespace NcLang

/-- Why a compilation failed. -/
inductive Error where
  | lexical (fault : Located Span LexicalFault)
  | grammar (fault : Located Span GrammarFault)
  | type (cause : TypeFault) (span : Option Span)
  | internal (fault : Located Span InternalFault)
  | write
  | io (error : IoError)
  deriving DecidableEq

namespace Error

/-- The error that a fault in the tree is. -/
def ofTree (fault : Located Span TreeFault) : Error :=
  match fault.cause with
  | .type cause => .type cause (some fault.loc)
  | .internal cause => .internal { loc := fault.loc, cause }

/-- Whether the error shows a defect of the compiler. -/
def isInternal : Error → Bool
  | .internal _ => true
  | _ => false

/-- The stretch of source that the error concerns, if it concerns one. -/
def span? : Error → Option Span
  | .lexical fault => some fault.loc
  | .grammar fault => some fault.loc
  | .type _ span => span
  | .internal fault => some fault.loc
  | .write => none
  | .io _ => none

/-- The message for the user. -/
def message : Error → String
  | .lexical fault => "syntax error at " ++ fault.display LexicalFault.message
  | .grammar fault => "syntax error at " ++ fault.display GrammarFault.message
  | .type cause (some span) =>
    "type error at " ++ Located.display TypeFault.message { loc := span, cause }
  | .type cause none => "type error: " ++ cause.message
  | .internal fault => "internal compiler error at " ++ fault.display InternalFault.message
  | .write => "failed to write output"
  | .io error => "failed to write output: " ++ error.text

end Error

end NcLang
