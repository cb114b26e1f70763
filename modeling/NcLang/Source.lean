import NcLang.Text.Bytes
import NcLang.Text.Decimal
import NcLang.Text.LineBreaks
import NcLang.Text.Quoted

/-! # Source texts and places in them

A `Pos` is a place between two characters of a source, and a `Span` the stretch from one place to
another. Each has a form shown to users (`display`) and a form shown in listings (`dump`). Tokens,
trees and diagnostics are located by spans, but most of what is done with them only needs to stretch
one location to the end of another; that is the class `Stretch`.

Lines and columns are counted without a bound. They stand for counters of 32 bits, and are right
for texts of fewer than 2^32 characters, in which no counter gets further (`Pos.IsExact.counters`).
Debug assertions are taken to be off, so that the ends of a span may stand in any order: spans of
tokens that were made by hand need not stop after they start.
-/

namespace NcLang

/-- A text and the path it is known by. Paths only appear in diagnostics. -/
structure Source where
  text : String
  path : String
  deriving DecidableEq

namespace Source

/-- The source of a text as it was read, its line breaks normalized. -/
def ofText (text path : String) : Source where
  text := Text.normalizeBreaks text
  path := path

/-- The path, quoted, and the length in bytes. -/
def dump (source : Source) : String :=
  "Source(" ++ Text.Quoted.text source.path ++ ", len: " ++
    Text.natural source.text.utf8ByteSize ++ ")"

end Source

/-- A place in a source. Lines and columns count from zero; the column counts characters and the
index bytes. Places of texts with 2^32 characters or more are left out of account. -/
structure Pos where
  line : Nat
  column : Nat
  index : Nat
  source : Source
  deriving DecidableEq

/-- The stretch of a source between two places, of which nothing makes sure that they stand in this
order. -/
structure Span where
  start : Pos
  stop : Pos
  deriving DecidableEq

namespace Pos

/-- The place before the first character. -/
def origin (source : Source) : Pos where
  line := 0
  column := 0
  index := 0
  source := source

/-- The place after one more character. -/
def advance (pos : Pos) (c : Char) : Pos where
  line := if c = '\n' then pos.line + 1 else pos.line
  column := if c = '\n' then 0 else pos.column + 1
  index := pos.index + c.utf8Size
  source := pos.source

/-- The place after some more characters. -/
def after (pos : Pos) (chars : List Char) : Pos :=
  chars.foldl advance pos

/-- The empty stretch at a place. -/
def emptySpan (pos : Pos) : Span where
  start := pos
  stop := pos

/-- Path, line and column, both counted from one. -/
def display (pos : Pos) : String :=
  pos.source.path ++ ":" ++ Text.natural (pos.line + 1) ++ ":" ++ Text.natural (pos.column + 1)

/-- Line, column and index, all counted from zero. -/
def dump (pos : Pos) : String :=
  "Pos(" ++ Text.natural pos.line ++ ":" ++ Text.natural pos.column ++ " @ " ++
    Text.natural pos.index ++ ")"

end Pos

namespace Span

/-- The stretch from the start of the first span to the stop of the second. -/
def through (first last : Span) : Span where
  start := first.start
  stop := last.stop

/-- The characters of the stretch, unless its ends do not lie between characters of the source. -/
def substr? (span : Span) : Option String :=
  Text.slice? span.start.source.text span.start.index span.stop.index

/-- The two byte indices. -/
def display (span : Span) : String :=
  Text.natural span.start.index ++ ".." ++ Text.natural span.stop.index

/-- The two byte indices, marked as a span. -/
def dump (span : Span) : String :=
  "Span(" ++ span.display ++ ")"

end Span

/-- Locations of which one can be stretched to the end of a later one. -/
class Stretch (α : Type) where
  /-- The location that starts with the first and stops with the last. -/
  through : α → α → α

instance : Stretch Span where
  through := Span.through

/-- A cause and the location that shows it. -/
structure Located (α Cause : Type) where
  loc : α
  cause : Cause
  deriving DecidableEq

/-- The place where the cause shows, followed by its message. -/
def Located.display {Cause : Type} (message : Cause → String) (located : Located Span Cause) :
    String :=
  located.loc.start.display ++ ": " ++ message located.cause

end NcLang
