import NcLang.Error
import NcLang.Output.Device
import NcLang.Tree.Outline
import NcLang.Tree.Parse

/-! # Compilation

From program text to C text (`compile`), and the steps of it that are of use alone: the tree of a
text, the C text of a tree in a writer, and both on a device.

Trees that are printed to a device have margins as wide as they have to be. Those more than 16383
levels deep, where `Scope.printTree?` is stopped, are left out of account.
-/

namespace NcLang

/-- The text that indents by one level unless another is asked for. -/
def standardIndent : String :=
  "    "

/-- The tokens of a text. -/
def tokensOf (text path : String) : Except Error (List (Token Span)) :=
  (Source.ofText text path).tokens.mapError .lexical

/-- The tree of some tokens. -/
def treeOf (tokens : List (Token Span)) : Except Error (Scope Span) :=
  (Scope.parse tokens).mapError .grammar

namespace Scope

/-- Writes the C text of a program, as far as the writer and the tree allow. The result has the
error that ended it, if there was one. -/
def write {W : Type} [TextWriter W] (indent : String) (root : Scope Span) (out : W) :
    W × Option Error :=
  let emission := root.programEmission
  match ({ out, unit := indent } : Sink W).performAll emission.ops with
  | .taken sink => (sink.out, emission.fault.map .ofTree)
  | .refused sink => (sink.out, some .write)

/-- The C text of a program. -/
def cText (indent : String) (root : Scope Span) : Except Error String :=
  match root.write indent "" with
  | (text, none) => .ok text
  | (_, some error) => .error error

/-- Writes the C text of a program to a device, which is flushed at the end in any case. An error of
the device while writing counts before one of the tree, and that one before a failed flush. -/
def writeTo (indent : String) (root : Scope Span) (stream : Stream) : Stream × Option Error :=
  let (out, error) := root.write indent ({ stream } : StreamText)
  let (flushed, flushFault) := out.stream.flush
  (flushed, (out.fault.map .io).or (error.or (flushFault.map .io)))

/-- Prints the tree to a device, which is not flushed. -/
def printTo (root : Scope Span) (stream : Stream) : Stream × Option Error :=
  let (printed, fault) := stream.writePieces (root.outline.pieces 0)
  (printed, fault.map .io)

end Scope

/-- The C text of a program text. The path only shows in diagnostics. -/
def compile (text path : String) : Except Error String := do
  let tokens ← tokensOf text path
  let root ← treeOf tokens
  root.cText standardIndent

/-- Writes the C text of a program text to a device, which is left alone if the text is no
program. -/
def compileTo (text path : String) (stream : Stream) : Stream × Option Error :=
  match tokensOf text path >>= treeOf with
  | .ok root => root.writeTo standardIndent stream
  | .error error => (stream, some error)

end NcLang
