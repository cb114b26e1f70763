/-! # Writers

A writer takes pieces of text one after the other, and may refuse one. What it does with them is
its own affair: a `String` takes everything and holds it, a `BoundedText` holds a limited number
of bytes.
-/

namespace NcLang

/-- What became of a writer that was asked to take something. -/
inductive Reply (W : Type) where
  | taken (writer : W)
  | refused (writer : W)

namespace Reply

variable {W : Type}

/-- The writer as it is afterwards. -/
def writer : Reply W → W
  | .taken writer => writer
  | .refused writer => writer

/-- Whether the writer took what it was asked to take. -/
def isTaken : Reply W → Bool
  | .taken _ => true
  | .refused _ => false

end Reply

/-- Types of writers. -/
class TextWriter (W : Type) where
  /-- Asks the writer to take a piece of text. -/
  write : W → String → Reply W

/-- Writes pieces of text one after the other, up to the first that is refused. -/
def TextWriter.writeAll {W : Type} [TextWriter W] (writer : W) : List String → Reply W
  | [] => .taken writer
  | piece :: pieces =>
    match write writer piece with
    | .taken next => writeAll next pieces
    | .refused next => .refused next

instance : TextWriter String where
  write text piece := .taken (text ++ piece)

/-- A text that may not become longer than a number of bytes. -/
structure BoundedText where
  text : String := ""
  limit : Option Nat := none

instance : TextWriter BoundedText where
  write buffer piece :=
    let text := buffer.text ++ piece
    if buffer.limit.all fun limit => text.utf8ByteSize ≤ limit then .taken { buffer with text }
    else .refused buffer

end NcLang
