import NcLang.Cli.Command

/-! # Arguments

How arguments make up a command, and what is shown to those who ask for help or for the version, or
whose arguments make up none. The program leaves all of this to a general reader of arguments, whose
customs are assumed here, and nothing is proved from them. Arguments are read from left to right: a
request for help or for the version is answered at once, and so is an argument that cannot stand
where it does. Flags end with `--`, and a lone `-` is a path like any other.
-/

namespace NcLang.Cli

/-! ## Reading arguments -/

/-- What one argument is, as long as flags have not ended. -/
inductive Argument where
  | help
  | version
  | tokens
  | tree
  | endOfFlags
  | path (path : String)
  | unknown
  deriving DecidableEq

/-- Tells what an argument is. Flags take no value, long ones are written in full, and of a group of
short ones the first decides. -/
def Argument.ofText (text : String) : Argument :=
  match text.toList with
  | [] => .unknown
  | ['-'] => .path text
  | '-' :: '-' :: _ =>
    if text = "--" then .endOfFlags
    else if text = "--help" then .help
    else if text = "--version" then .version
    else if text = "--tokens" then .tokens
    else if text = "--tree" then .tree
    else .unknown
  | '-' :: 'h' :: _ => .help
  | '-' :: 'V' :: _ => .version
  | '-' :: _ => .unknown
  | _ => .path text

/-- The arguments read so far. -/
structure Arguments where
  path : Option String := none
  showTokens : Bool := false
  showTree : Bool := false

namespace Arguments

/-- The command that the arguments make up when there are no more. -/
def command (given : Arguments) : Command :=
  match given.path with
  | some path => .compile { path, showTokens := given.showTokens, showTree := given.showTree }
  | none => .misuse

/-- The command if all further arguments are paths. -/
def readPaths (given : Arguments) : List String → Command
  | [] => given.command
  | text :: texts =>
    if given.path.isNone ∧ text ≠ "" then readPaths { given with path := some text } texts
    else .misuse

/-- The command that the arguments make up together with further ones. -/
def read (given : Arguments) : List String → Command
  | [] => given.command
  | text :: texts =>
    match Argument.ofText text with
    | .help => .help
    | .version => .version
    | .tokens =>
      if given.showTokens then .misuse else read { given with showTokens := true } texts
    | .tree => if given.showTree then .misuse else read { given with showTree := true } texts
    | .endOfFlags => given.readPaths texts
    | .path path =>
      if given.path.isNone then read { given with path := some path } texts else .misuse
    | .unknown => .misuse

end Arguments

/-- The command that some arguments make up. -/
def Command.ofArguments (texts : List String) : Command :=
  ({} : Arguments).read texts

/-! ## Texts shown instead of a compilation -/

/-- The answer to a request for help. -/
def helpText : String :=
  "Compiles an nc source file into C, printed to stdout\n" ++
  "\n" ++
  "Usage: ncc [OPTIONS] <PATH>\n" ++
  "\n" ++
  "Arguments:\n" ++
  "  <PATH>  Source file to compile\n" ++
  "\n" ++
  "Options:\n" ++
  "      --tokens   Print the token list before compiling\n" ++
  "      --tree     Print the syntax tree before compiling\n" ++
  "  -h, --help     Print help\n" ++
  "  -V, --version  Print version\n"

/-- The answer to a request for the version. -/
def versionText : String :=
  "ncc 0.0.1\n"

/-- The answer to arguments that make up no command. -/
def usageText : String :=
  "Usage: ncc [OPTIONS] <PATH>\n"

end NcLang.Cli
