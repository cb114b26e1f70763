import NcLang.Text.Alphabetic
import NcLang.Text.DefaultIgnorable
import NcLang.Text.GraphemeExtend
import NcLang.Text.Numeric
import NcLang.Text.Unprintable
import NcLang.Text.WhiteSpace

/-! # Character classes

The classes that decide where a token ends (`isWhiteSpace`, `isAlphabetic`, `isAlphanumeric`) and
which characters quoted text shows by their code (`isObscure`).
-/

namespace NcLang.Text

/-- Whether the character may stand between two tokens. -/
def isWhiteSpace (c : Char) : Bool :=
  whiteSpace.covers c.toNat

/-- Whether the character may start an identifier. -/
def isAlphabetic (c : Char) : Bool :=
  alphabetic.covers c.toNat

/-- Whether the character is alphabetic or a number of any script. -/
def isAlphanumeric (c : Char) : Bool :=
  isAlphabetic c || numeric.covers c.toNat

/-- Whether the character is one of the two halfwidth sound marks. They extend a grapheme, but are
letters with a picture of their own. -/
def isHalfwidthSoundMark (c : Char) : Bool :=
  c = '\uff9e' || c = '\uff9f'

/-- Whether a reader could not tell the character from its picture alone: it is drawn together with
its neighbour, it is drawn as nothing, or it has no picture at all. -/
def isObscure (c : Char) : Bool :=
  (graphemeExtend.covers c.toNat && !isHalfwidthSoundMark c) || defaultIgnorable.covers c.toNat ||
    unprintable.covers c.toNat

end NcLang.Text
