/-! # Commands

What the program can be asked to do. How arguments make up a command is left to `Cli.Arguments`.
-/

namespace NcLang.Cli

/-- What to compile, and what to show on the way. -/
structure Options where
  path : String
  showTokens : Bool
  showTree : Bool
  deriving DecidableEq

/-- What the user asks for. -/
inductive Command where
  | help
  | version
  | compile (options : Options)
  | misuse
  deriving DecidableEq

end NcLang.Cli
