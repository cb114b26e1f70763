/-! # Errors of the outside world -/

namespace NcLang

/-- The kinds of errors that files and devices report. Interruptions are not among them: a write
that is interrupted is tried again, and nobody hears of it. -/
inductive IoErrorKind where
  | brokenPipe
  | permissionDenied
  | timedOut
  | writeZero
  | notFound
  | isADirectory
  | notADirectory
  | invalidFilename
  | invalidData
  | other
  deriving DecidableEq

/-- An error of a file or a device, with the text that describes it. -/
structure IoError where
  kind : IoErrorKind
  text : String
  deriving DecidableEq

namespace IoError

/-- The error of a device that takes no more bytes without saying why. -/
def writeZero : IoError where
  kind := .writeZero
  text := "failed to write whole buffer"

/-- The error of a path at which there is nothing. -/
def notFound : IoError where
  kind := .notFound
  text := "No such file or directory (os error 2)"

/-- The error of a path that goes on after a file. -/
def notADirectory : IoError where
  kind := .notADirectory
  text := "Not a directory (os error 20)"

/-- The error of a directory that was to be read as a file. -/
def isADirectory : IoError where
  kind := .isADirectory
  text := "Is a directory (os error 21)"

/-- The error of a path that is too long, or that has a name in it that is. -/
def nameTooLong : IoError where
  kind := .invalidFilename
  text := "File name too long (os error 36)"

/-- The error of bytes that were to be read as text. -/
def invalidText : IoError where
  kind := .invalidData
  text := "stream did not contain valid UTF-8"

end IoError

end NcLang
