/-! # Text as bytes

Positions count the bytes of the UTF-8 form of a text, and output leaves the program in that form.
-/

namespace NcLang.Text

/-- The UTF-8 bytes of a text. -/
def bytes (text : String) : List UInt8 :=
  text.toList.flatMap String.utf8EncodeChar

/-- The text whose UTF-8 form the bytes are, if they are one. -/
def ofBytes? (bytes : List UInt8) : Option String :=
  String.fromUTF8? ⟨bytes.toArray⟩

/-- Splits off the characters that make up the first `count` bytes. There is no result if the text
is shorter, or if the cut would go through a character. -/
def splitBytes? : Nat → List Char → Option (List Char × List Char)
  | 0, chars => some ([], chars)
  | _ + 1, [] => none
  | count + 1, c :: rest =>
    if c.utf8Size ≤ count + 1 then
      (splitBytes? (count + 1 - c.utf8Size) rest).map fun (taken, left) => (c :: taken, left)
    else
      none

/-- The part of a text from one byte index up to another, if both lie between characters. -/
def slice? (text : String) (start stop : Nat) : Option String := do
  guard (start ≤ stop)
  let (_, rest) ← splitBytes? start text.toList
  let (taken, _) ← splitBytes? (stop - start) rest
  return String.ofList taken

end NcLang.Text
