import NcLang.Output.Writer
import NcLang.Text.LineBreaks

/-! # Indented text

A sink passes text on to a writer and indents it: before the first character of each line that has
one, it writes the indent unit as often as the depth says. It knows the last character it passed on,
and so whether it stands at the start of a line.
-/

namespace NcLang

/-- A writer with a depth of indentation. -/
structure Sink (W : Type) where
  out : W
  /-- The text written once for each level of depth. -/
  unit : String
  depth : Nat := 0
  /-- The last character passed on, if any. -/
  last : Option Char := none

/-- What a sink can be asked to do. -/
inductive SinkOp where
  | indent
  | dedent
  | append (text : String)
  | newLine
  deriving DecidableEq

namespace Sink

variable {W : Type}

/-- Whether nothing was written yet, or a line was just ended. -/
def atLineStart (sink : Sink W) : Bool :=
  sink.last.all (· = '\n')

/-- The pieces that indent a line. -/
def margin (sink : Sink W) : List String :=
  List.replicate sink.depth sink.unit

/-- The pieces that write the further lines of a text. An empty line is not indented. -/
def furtherLine (sink : Sink W) (line : List Char) : List String :=
  if line = [] then ["\n"] else "\n" :: sink.margin ++ [String.ofList line]

/-- The pieces that write a text. -/
def pieces (sink : Sink W) (text : String) : List String :=
  let (first, further) := Text.lines text.toList
  let margin := if sink.atLineStart ∧ first ≠ [] then sink.margin else []
  margin ++ String.ofList first :: further.flatMap sink.furtherLine

variable [TextWriter W]

/-- Writes pieces of a text that ends with a character. If one is refused, the ones before it stay
written, but the sink does not take note of them. -/
def emit (sink : Sink W) (pieces : List String) (last : Char) : Reply (Sink W) :=
  match TextWriter.writeAll sink.out pieces with
  | .taken out => .taken { sink with out, last := some last }
  | .refused out => .refused { sink with out }

/-- Writes a text, indenting each line that it starts. -/
def append (sink : Sink W) (text : String) : Reply (Sink W) :=
  match text.toList.getLast? with
  | some last => sink.emit (sink.pieces text) last
  | none => .taken sink

/-- Ends the current line, unless the sink is at the start of one. -/
def newLine (sink : Sink W) : Reply (Sink W) :=
  if sink.atLineStart then .taken sink else sink.emit ["\n"] '\n'

/-- Does what the sink is asked to do. The depth stays at zero if it is lowered there. -/
def perform (sink : Sink W) : SinkOp → Reply (Sink W)
  | .indent => .taken { sink with depth := sink.depth + 1 }
  | .dedent => .taken { sink with depth := sink.depth - 1 }
  | .append text => sink.append text
  | .newLine => sink.newLine

/-- Does one thing after the other, up to the first that is refused. -/
def performAll (sink : Sink W) : List SinkOp → Reply (Sink W)
  | [] => .taken sink
  | op :: ops =>
    match sink.perform op with
    | .taken next => next.performAll ops
    | .refused next => .refused next

end Sink

end NcLang
