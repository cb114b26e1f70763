import NcLang.Cli.Arguments
import NcLang.Compile

/-! # Sessions

What the program does with a command: the text on standard output and on standard error, and the
exit status. Standard output is a device, to which each step writes as far as it comes; listings
that were asked for are shown even if a later step fails.

The log is taken to be off, as it is unless the environment turns it on, so that standard error has
nothing but the report of an error. Debug assertions are taken to be off as well.
-/

namespace NcLang.Cli

/-- All that a run of the program shows. -/
structure Session where
  status : Nat
  stdout : String
  stderr : String
  deriving DecidableEq

/-- A run of the program on some standard output: how it ends, and what was written. -/
structure Outcome where
  status : Nat
  stdout : Stream
  stderr : String

/-- Lists tokens on a device, one on a line. -/
def listTokensTo (tokens : List (Token Span)) (stream : Stream) : Stream × Option Error :=
  let (listed, fault) := stream.writePieces (tokens.flatMap fun token => [token.dump, "\n"])
  (listed, fault.map .io)

/-- Goes on with a device, unless an error has ended the work on it. -/
def proceed (done : Stream × Option Error) (next : Stream → Stream × Option Error) :
    Stream × Option Error :=
  match done with
  | (stream, none) => next stream
  | (stream, some error) => (stream, some error)

namespace Options

/-- Writes the C text of a text, after the listings that are asked for. The result has the error
that ended it, if there was one. -/
def compileTextTo (options : Options) (text : String) (stdout : Stream) : Stream × Option Error :=
  match tokensOf text options.path with
  | .error error => (stdout, some error)
  | .ok tokens =>
    proceed (if options.showTokens then listTokensTo tokens stdout else (stdout, none))
      fun stdout =>
        match treeOf tokens with
        | .error error => (stdout, some error)
        | .ok root =>
          proceed (if options.showTree then root.printTo stdout else (stdout, none))
            fun stdout => root.writeTo standardIndent stdout

/-- Does the same for the contents of a file. -/
def compileContentsTo (options : Options) (contents : Except IoError (List UInt8))
    (stdout : Stream) : Stream × Option Error :=
  match contents with
  | .error error => (stdout, some (.io error))
  | .ok bytes =>
    match Text.ofBytes? bytes with
    | some text => options.compileTextTo text stdout
    | none => (stdout, some (.io .invalidText))

end Options

/-- The report of an error. -/
def errorReport (error : Error) : String :=
  "error: " ++ error.message ++ "\n" ++
    if error.isInternal then "note: this is a compiler bug\n" else ""

namespace Command

/-- Runs a command, given the contents of the files and a standard output. -/
def run (contents : String → Except IoError (List UInt8)) (stdout : Stream) : Command → Outcome
  | .help => { status := 0, stdout := (stdout.writePieces [helpText]).1, stderr := "" }
  | .version => { status := 0, stdout := (stdout.writePieces [versionText]).1, stderr := "" }
  | .misuse => { status := 2, stdout, stderr := usageText }
  | .compile options =>
    match options.compileContentsTo (contents options.path) stdout with
    | (stdout, none) => { status := 0, stdout, stderr := "" }
    | (stdout, some error) => { status := 1, stdout, stderr := errorReport error }

/-- What a command shows on a standard output without bounds, given the contents of the files. -/
def session (contents : String → Except IoError (List UInt8)) (command : Command) : Session :=
  let outcome := command.run contents ({} : Device).stream
  { status := outcome.status
    stdout := (Text.ofBytes? outcome.stdout.kept).getD ""
    stderr := outcome.stderr }

end Command

end NcLang.Cli
