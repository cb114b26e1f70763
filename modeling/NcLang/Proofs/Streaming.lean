import NcLang.Compile
import NcLang.Proofs.Delivery
import NcLang.Proofs.Pen

/-! # Writing a program to a writer that may refuse

The pieces of text that a compilation asks a writer to take do not depend on the writer
(`Scope.calls`): a writer gets them one after the other, up to the first that it refuses. So on
every writer a compilation is a beginning of the one that is held in memory, and the first thing
that goes wrong decides how it ends (`Scope.writeTo_eq_prefix`).
-/

namespace NcLang

variable {V W : Type}

/-! ## What a sink passes on -/

/-- A reply about another writer. -/
def Reply.map (f : W → V) : Reply W → Reply V
  | .taken writer => .taken (f writer)
  | .refused writer => .refused (f writer)

theorem TextWriter.writeAll_append [TextWriter W] (writer : W) (first second : List String) :
    TextWriter.writeAll writer (first ++ second) =
      match TextWriter.writeAll writer first with
      | .taken next => TextWriter.writeAll next second
      | .refused next => .refused next := by
  induction first generalizing writer with
  | nil => rfl
  | cons piece first ih =>
      rw [List.cons_append, TextWriter.writeAll, TextWriter.writeAll]
      cases TextWriter.write writer piece with
      | taken next => exact ih next
      | refused next => rfl

namespace Sink

/-- The same sink on another writer. -/
def onto (sink : Sink W) (out : V) : Sink V where
  out := out
  unit := sink.unit
  depth := sink.depth
  last := sink.last

/-- The pieces that a sink passes on when it is asked for one thing. -/
def calls (sink : Sink W) : SinkOp → List String
  | .indent | .dedent => []
  | .append text => if text = "" then [] else sink.pieces text
  | .newLine => if sink.atLineStart then [] else ["\n"]

/-- The sink after it has passed these pieces on, still with the writer of before. -/
def moved (sink : Sink W) : SinkOp → Sink W
  | .indent => { sink with depth := sink.depth + 1 }
  | .dedent => { sink with depth := sink.depth - 1 }
  | .append text => { sink with last := text.toList.getLast?.or sink.last }
  | .newLine => if sink.atLineStart then sink else { sink with last := some '\n' }

/-- The texts that a sink writes for operations in a row, each from where the ones before leave it.
-/
def callsOfAll (sink : Sink W) : List SinkOp → List String
  | [] => []
  | op :: ops => sink.calls op ++ (sink.moved op).callsOfAll ops

theorem moved_onto (sink : Sink W) (out : V) (op : SinkOp) :
    (sink.onto out).moved op = (sink.moved op).onto out := by
  cases op with
  | newLine =>
      change (if sink.atLineStart then sink.onto out else _) = _
      rw [moved]
      cases sink.atLineStart with
      | true => rfl
      | false => rfl
  | _ => rfl

/-- What a sink passes on does not depend on its writer. -/
theorem callsOfAll_onto (sink : Sink W) (out : V) (ops : List SinkOp) :
    (sink.onto out).callsOfAll ops = sink.callsOfAll ops := by
  induction ops generalizing sink with
  | nil => rfl
  | cons op ops ih =>
      have here : (sink.onto out).calls op = sink.calls op := by
        cases op <;> rfl
      rw [callsOfAll, callsOfAll, here, moved_onto, ih]

variable [TextWriter W]

/-- A sink does what it is asked to do if the writer takes all that is passed on. -/
theorem perform_eq (sink : Sink W) (op : SinkOp) :
    sink.perform op =
      match TextWriter.writeAll sink.out (sink.calls op) with
      | .taken out => .taken ((sink.moved op).onto out)
      | .refused out => .refused (sink.onto out) := by
  cases op with
  | indent => rfl
  | dedent => rfl
  | append text =>
      rw [perform, append, calls, moved]
      cases final : text.toList.getLast? with
      | none =>
          have empty : text = "" := String.toList_eq_nil_iff.mp (List.getLast?_eq_none_iff.mp final)
          rw [if_pos empty]
          rfl
      | some last =>
          have nonempty : text ≠ "" := by
            rintro rfl
            cases final
          rw [if_neg nonempty]
          rfl
  | newLine =>
      rw [perform, newLine, calls, moved]
      cases sink.atLineStart with
      | true => rfl
      | false => rfl

/-- The writer of a sink gets the pieces that are passed on, up to the first that it refuses. -/
theorem performAll_out (sink : Sink W) (ops : List SinkOp) :
    (sink.performAll ops).map Sink.out = TextWriter.writeAll sink.out (sink.callsOfAll ops) := by
  induction ops generalizing sink with
  | nil => rfl
  | cons op ops ih =>
      rw [performAll, perform_eq, callsOfAll, TextWriter.writeAll_append]
      cases TextWriter.writeAll sink.out (sink.calls op) with
      | taken out =>
          rw [← callsOfAll_onto (sink.moved op) out]
          exact ih ((sink.moved op).onto out)
      | refused out => rfl

end Sink

/-! ## The calls of a compilation -/

/-- A writer that takes everything and keeps the pieces apart. -/
structure Journal where
  pieces : List String := []

instance : TextWriter Journal where
  write journal piece := .taken { pieces := journal.pieces ++ [piece] }

theorem Journal.writeAll_eq (journal : Journal) (pieces : List String) :
    TextWriter.writeAll journal pieces = .taken { pieces := journal.pieces ++ pieces } := by
  induction pieces generalizing journal with
  | nil =>
      rw [List.append_nil]
      rfl
  | cons piece pieces ih =>
      change TextWriter.writeAll ({ pieces := journal.pieces ++ [piece] } : Journal) pieces = _
      rw [ih, List.append_assoc, List.singleton_append]

/-- The pieces that the C text of a program is written in, where none is refused. -/
def Scope.calls (indent : String) (root : Scope Span) : List String :=
  (root.write indent ({} : Journal)).1.pieces

/-- What is wrong with a program as a tree. -/
def Scope.fault (root : Scope Span) : Option Error :=
  root.programEmission.fault.map .ofTree

/-- How a compilation ends that makes some calls and then shows a fault, if there is one: the writer
takes all of the calls, or it refuses one, which is the last that it gets. -/
inductive Scope.EndsOn [TextWriter W] (calls : List String) (fault : Option Error) (out : W) :
    W × Option Error → Prop
  | finished {next : W} (taken : TextWriter.writeAll out calls = .taken next) :
      EndsOn calls fault out (next, fault)
  | refused {accepted later : List String} {piece : String} {between next : W}
      (split : calls = accepted ++ piece :: later)
      (taken : TextWriter.writeAll out accepted = .taken between)
      (refused : TextWriter.write between piece = .refused next) :
      EndsOn calls fault out (next, some .write)

/-- A writer that refuses has taken the pieces before some piece, and refused this one. -/
theorem TextWriter.exists_refused [TextWriter W] {writer next : W} {pieces : List String}
    (stopped : TextWriter.writeAll writer pieces = .refused next) :
    ∃ accepted piece later between, pieces = accepted ++ piece :: later ∧
      TextWriter.writeAll writer accepted = .taken between ∧
      TextWriter.write between piece = .refused next := by
  induction pieces generalizing writer with
  | nil => cases stopped
  | cons piece pieces ih =>
      rw [TextWriter.writeAll] at stopped
      cases answer : TextWriter.write writer piece with
      | taken between =>
          rw [answer] at stopped
          obtain ⟨accepted, other, later, reached, split, taken, refused⟩ := ih stopped
          refine ⟨piece :: accepted, other, later, reached, ?_, ?_, refused⟩
          · rw [split, List.cons_append]
          · rw [TextWriter.writeAll, answer]
            exact taken
      | refused other =>
          rw [answer] at stopped
          cases stopped
          exact ⟨[], piece, pieces, writer, rfl, rfl, answer⟩

/-- A compilation asks every writer to take the same pieces. -/
theorem Scope.write_eq [TextWriter W] (indent : String) (root : Scope Span) (out : W) :
    root.write indent out =
      match TextWriter.writeAll out (root.calls indent) with
      | .taken next => (next, root.fault)
      | .refused next => (next, some .write) := by
  -- A sink without a writer tells what is passed on, to the journal as to all other writers.
  have run {V : Type} [TextWriter V] (writer : V) :
      root.write indent writer =
        match TextWriter.writeAll writer
          (({ out := (), unit := indent } : Sink Unit).callsOfAll root.programEmission.ops) with
        | .taken next => (next, root.fault)
        | .refused next => (next, some .write) := by
    have passed := Sink.performAll_out ({ out := writer, unit := indent } : Sink V)
      root.programEmission.ops
    have same := Sink.callsOfAll_onto ({ out := writer, unit := indent } : Sink V) ()
      root.programEmission.ops
    rw [← same] at passed
    change _ = TextWriter.writeAll writer
      (({ out := (), unit := indent } : Sink Unit).callsOfAll root.programEmission.ops) at passed
    rw [← passed, Scope.write]
    cases Sink.performAll { out := writer, unit := indent } root.programEmission.ops with
    | taken sink => rfl
    | refused sink => rfl
  have journal : root.calls indent =
      ({ out := (), unit := indent } : Sink Unit).callsOfAll root.programEmission.ops := by
    rw [Scope.calls, run, Journal.writeAll_eq]
    rfl
  rw [run, journal]

/-- In memory, a compilation writes the text of its calls. -/
theorem Scope.write_text (indent : String) (root : Scope Span) :
    root.write indent "" = (String.join (root.calls indent), root.fault) := by
  rw [Scope.write_eq, TextWriter.writeAll_string, String.empty_append]

/-- Every writer gets the texts of a program one by one, up to the first that it refuses. -/
theorem Scope.endsOn [TextWriter W] (indent : String) (root : Scope Span) (out : W) :
    Scope.EndsOn (root.calls indent) root.fault out (root.write indent out) := by
  rw [Scope.write_eq]
  cases answer : TextWriter.writeAll out (root.calls indent) with
  | taken next => exact .finished answer
  | refused next =>
      obtain ⟨_, _, _, _, split, taken, refused⟩ := TextWriter.exists_refused answer
      exact .refused split taken refused

/-! ## Writers that hold a text -/

/-- Writers with a text in them: a piece that is taken comes after it, and a piece that is refused
leaves it as it is. -/
class TextHolder (W : Type) extends TextWriter W where
  held : W → String
  held_taken : ∀ {writer next : W} {piece : String},
    TextWriter.write writer piece = .taken next → held next = held writer ++ piece
  held_refused : ∀ {writer next : W} {piece : String},
    TextWriter.write writer piece = .refused next → held next = held writer

open TextHolder (held held_taken held_refused)

instance : TextHolder String where
  held := id
  held_taken taken := by
    cases taken
    rfl
  held_refused refused := by cases refused

instance : TextHolder BoundedText where
  held := BoundedText.text
  held_taken {writer next piece} taken := by
    dsimp only [TextWriter.write] at taken
    split at taken
    · cases taken
      rfl
    · cases taken
  held_refused {writer next piece} refused := by
    dsimp only [TextWriter.write] at refused
    split at refused
    · cases refused
    · cases refused
      rfl

/-- A writer that takes all pieces holds them after what it held before. -/
theorem TextHolder.held_writeAll [TextHolder W] {writer next : W} {pieces : List String}
    (taken : TextWriter.writeAll writer pieces = .taken next) :
    held next = held writer ++ String.join pieces := by
  induction pieces generalizing writer with
  | nil =>
      cases taken
      rw [String.join_nil, String.append_empty]
  | cons piece pieces ih =>
      rw [TextWriter.writeAll] at taken
      cases answer : TextWriter.write writer piece with
      | taken between =>
          rw [answer] at taken
          rw [ih taken, held_taken answer, String.join_cons, String.append_assoc]
      | refused other =>
          rw [answer] at taken
          cases taken

/-- A writer that holds a text has a beginning of the calls added to it. -/
theorem Scope.EndsOn.held [TextHolder W] {calls : List String} {fault : Option Error} {out : W}
    {result : W × Option Error} (ends : Scope.EndsOn calls fault out result) :
    ∃ accepted later, calls = accepted ++ later ∧
      TextHolder.held result.1 = TextHolder.held out ++ String.join accepted := by
  cases ends with
  | finished taken =>
      exact ⟨calls, [], (List.append_nil _).symm, TextHolder.held_writeAll taken⟩
  | @refused accepted later piece between next split taken refused =>
      refine ⟨accepted, piece :: later, split, ?_⟩
      rw [held_refused refused]
      exact TextHolder.held_writeAll taken

/-! ## Devices -/

theorem Scope.fault_ne_write (root : Scope Span) : root.fault ≠ some .write := by
  intro same
  obtain ⟨located, _, written⟩ := Option.map_eq_some_iff.mp same
  obtain ⟨loc, cause⟩ := located
  cases cause <;> cases written

/-- A device takes the beginning of the text for which it has room, and is flushed. -/
theorem Scope.writeTo_delivered (indent : String) (root : Scope Span) (stream : Stream)
    (steady : stream.device.Steady) :
    ∃ written error,
      stream.Delivered (Text.bytes (String.join (root.calls indent))) written error ∧
      root.writeTo indent stream =
        (written.flush.1,
          (error.map .io).or (root.fault.or (stream.device.flushFault.map .io))) := by
  obtain ⟨written, error, delivered, reply⟩ :=
    StreamText.writeAll_delivered stream steady (root.calls indent)
  refine ⟨written, error, delivered, ?_⟩
  rw [Scope.writeTo, Scope.write_eq, reply]
  cases error with
  | none =>
      rw [← delivered.took.device]
      rfl
  | some fault => rfl

/-- **On every writer, a compilation is a beginning of the one in memory.** A device takes the bytes
of the text in memory for which it has room, in whatever chunks and after however many
interruptions, and is flushed once, at the end. If there is no room for all of them, that is the
error; else it is the fault of the tree, if there is one, else that of the flush. A writer of any
other kind gets the calls that make up the text, up to the first that it refuses, and the text that
it holds grows by the ones before. -/
theorem Scope.writeTo_eq_prefix (indent : String) (root : Scope Span) :
    let text := (root.write indent "").1
    let fault := (root.write indent "").2
    (∀ stream : Stream, stream.device.Steady →
      ∃ written,
        stream.Took (stream.share (Text.bytes text)) written ∧
        (root.writeTo indent stream).1 = written.flush.1 ∧
        (root.writeTo indent stream).2 =
          (if stream.hasRoom (Text.bytes text).length then
            fault.or (stream.device.flushFault.map .io)
          else some (.io stream.device.fullError)) ∧
        (root.writeTo indent stream).2 ≠ some .write) ∧
      text = String.join (root.calls indent) ∧
      (∀ (W : Type) [TextWriter W] (out : W),
        Scope.EndsOn (root.calls indent) fault out (root.write indent out)) ∧
      ∀ (W : Type) [TextHolder W] (out : W), ∃ accepted later,
        root.calls indent = accepted ++ later ∧
          held (root.write indent out).1 = held out ++ String.join accepted := by
  rw [Scope.write_text]
  refine ⟨?_, rfl, fun W _ out => root.endsOn indent out, fun W _ out =>
    (root.endsOn indent out).held⟩
  intro stream steady
  obtain ⟨written, error, delivered, result⟩ := root.writeTo_delivered indent stream steady
  have outcome := delivered.error
  refine ⟨written, delivered.took, ?_, ?_, ?_⟩
  · rw [result]
  · rw [result, outcome]
    cases stream.hasRoom (Text.bytes (String.join (root.calls indent))).length with
    | true => rfl
    | false => rfl
  · rw [result]
    cases error with
    | some fault => exact nofun
    | none =>
        have sound := root.fault_ne_write
        cases tree : root.fault with
        | some fault =>
            rw [tree] at sound
            exact sound
        | none => cases stream.device.flushFault <;> exact nofun

/-- A tree with a function inside another one. -/
def Scope.sampleNested : Scope Span :=
  let loc := Pos.emptySpan (Pos.origin { text := "", path := "" })
  let inner : Node Span := .funcDef "g" .i32 ⟨.block, [], loc⟩ loc
  ⟨.global, [.funcDef "f" .i32 ⟨.block, [inner], loc⟩ loc], loc⟩

/-- A device that takes seven bytes, at most three at a time, with interruptions, and cannot be
flushed. -/
def Device.sampleBroken : Device where
  capacity := some 7
  chunk := fun _ => some 3
  interruptions := Device.everyNth 2
  refusal := some { kind := .brokenPipe, text := "broken pipe" }
  flushFault := some { kind := .timedOut, text := "timed out" }

/-- The device gets the beginning of the text, and its error counts before that of the tree. -/
theorem Scope.writeTo_sampleBroken :
    (Scope.sampleNested.write standardIndent "").1 = "int f() \x7b\n" ∧
      (Scope.sampleNested.write standardIndent "").2.isSome ∧ Device.sampleBroken.Steady ∧
      let result := Scope.sampleNested.writeTo standardIndent Device.sampleBroken.stream
      result.1.kept = Text.bytes "int f()" ∧ result.1.flushes = [7] ∧
        result.2 = some (.io { kind := .brokenPipe, text := "broken pipe" }) := by
  have inMemory : (Scope.sampleNested.write standardIndent "").1 = "int f() \x7b\n" := by
    decide +kernel
  have steady : Device.sampleBroken.Steady := by
    intro attempt size chunk
    cases chunk
    decide
  obtain ⟨written, took, stream, error, _⟩ :=
    (Scope.writeTo_eq_prefix standardIndent Scope.sampleNested).1 Device.sampleBroken.stream steady
  rw [inMemory] at took error
  have share : Device.sampleBroken.stream.share (Text.bytes "int f() \x7b\n") =
      Text.bytes "int f()" := by
    decide +kernel
  have kept : written.kept = Text.bytes "int f()" := by
    rw [took.kept, share]
    rfl
  have flushes : written.flush.1.flushes = [7] := by
    change written.flushes ++ [written.kept.length] = [7]
    rw [took.flushes, kept]
    decide +kernel
  refine ⟨inMemory, by decide +kernel, steady, ?_, ?_, ?_⟩
  · rw [stream]
    exact kept
  · rw [stream]
    exact flushes
  · rw [error]
    rfl

end NcLang
