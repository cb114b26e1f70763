import NcLang.Cli.Session

/-! # The program

Reads the file that the command names, and shows what `Command.session` says.
-/

namespace NcLang.Cli

/-- The library's error for an error met while reading a file. Codes may come negated. -/
def readError (error : IO.Error) : IoError :=
  match error with
  | .noFileOrDirectory .. => .notFound
  | .inappropriateType _ code _ =>
    if code = 21 ∨ 0 - code = 21 then .isADirectory else .notADirectory
  | .invalidArgument _ code details =>
    if code = 36 ∨ 0 - code = 36 then .nameTooLong else { kind := .other, text := details }
  | error => { kind := .other, text := toString error }

/-- The contents of a file, or the error met while reading it. -/
def readContents (path : String) : IO (Except IoError (List UInt8)) := do
  try
    let contents ← IO.FS.readBinFile path
    return .ok contents.toList
  catch error =>
    return .error (readError error)

end NcLang.Cli

/-- Runs the command that the arguments make up. -/
def main (arguments : List String) : IO UInt32 := do
  let command := NcLang.Cli.Command.ofArguments arguments
  let contents ←
    match command with
    | .compile options => NcLang.Cli.readContents options.path
    | _ => pure (.ok [])
  let session := command.session fun _ => contents
  let stdout ← IO.getStdout
  stdout.putStr session.stdout
  stdout.flush
  let stderr ← IO.getStderr
  stderr.putStr session.stderr
  return session.status.toUInt32
