import NcLang.Proofs.Streaming

/-! # A sink writes one character at a time

A sink hands its writer a line at a time, and works out from the text it is given where it stands
afterwards. On a writer that takes everything this comes to what a pen does, which writes each
character by itself (`Sink.performAll_follows_pen`). So it makes no difference how a text is divided
among calls, and a line is only ended once.
-/

namespace NcLang

open TextHolder (held)

variable {W : Type}

/-! ## Writers that take everything -/

/-- Writers that refuse nothing. -/
def TextWriter.Willing (W : Type) [TextWriter W] : Prop :=
  ∀ (writer : W) (piece : String), (TextWriter.write writer piece).isTaken

theorem TextWriter.willing_string : TextWriter.Willing String :=
  fun _ _ => rfl

theorem TextWriter.Willing.writeAll [TextWriter W] (willing : TextWriter.Willing W) (writer : W)
    (pieces : List String) : ∃ next, TextWriter.writeAll writer pieces = .taken next := by
  induction pieces generalizing writer with
  | nil => exact ⟨writer, rfl⟩
  | cons piece pieces ih =>
      have takes := willing writer piece
      rw [TextWriter.writeAll]
      cases answer : TextWriter.write writer piece with
      | taken next => exact ih next
      | refused next =>
          rw [answer] at takes
          cases takes

/-! ## Sinks and pens -/

/-- Two texts are written as the text that they make up. -/
theorem Pen.performAll_append_text (pen : Pen) (first second : String) :
    pen.performAll [.append first, .append second] =
      pen.performAll [.append (first ++ second)] := by
  change (pen.putAll first.toList).putAll second.toList = pen.putAll (first ++ second).toList
  rw [String.toList_append, putAll, putAll, putAll, List.foldl_append]

namespace Sink

/-- A pen is moved to where a sink is after the same work, and adds what the sink passes on. -/
theorem perform_pen_onto (sink : Sink W) (text : String) (op : SinkOp) :
    (sink.onto text).pen.perform op =
      ((sink.moved op).onto (text ++ String.join (sink.calls op))).pen := by
  obtain ⟨next, performed, pen⟩ := (sink.onto text).perform_pen op
  have calls : (sink.onto text).calls op = sink.calls op := by
    cases op <;> rfl
  rw [perform_eq, TextWriter.writeAll_string, calls, moved_onto] at performed
  cases performed
  exact pen.symm

/-- A sink that stands where a pen does, on a writer to whose text all that the pen wrote was
added. -/
structure Follows [TextHolder W] (sink : Sink W) (before : String) (pen : Pen) : Prop where
  text : held sink.out = before ++ pen.text
  unit : sink.unit = pen.unit
  depth : sink.depth = pen.depth
  last : sink.last = pen.last

variable [TextHolder W] {sink : Sink W} {before : String} {pen : Pen}

theorem Follows.pen_eq (follows : sink.Follows before pen) : (sink.onto pen.text).pen = pen := by
  obtain ⟨_, unit, depth, last⟩ := follows
  change Pen.mk pen.text sink.unit sink.depth sink.last = pen
  rw [unit, depth, last]

/-- A sink follows a pen in one step. -/
theorem Follows.perform (follows : sink.Follows before pen) (willing : TextWriter.Willing W)
    (op : SinkOp) :
    ∃ next, sink.perform op = .taken next ∧ next.Follows before (pen.perform op) := by
  obtain ⟨out, taken⟩ := willing.writeAll sink.out (sink.calls op)
  refine ⟨(sink.moved op).onto out, ?_, ?_⟩
  · rw [perform_eq, taken]
  · have moved := perform_pen_onto sink pen.text op
    rw [follows.pen_eq] at moved
    rw [moved]
    refine ⟨?_, rfl, rfl, rfl⟩
    calc held out
        = held sink.out ++ String.join (sink.calls op) := TextHolder.held_writeAll taken
      _ = before ++ (pen.text ++ String.join (sink.calls op)) := by
          rw [follows.text, String.append_assoc]

/-- A sink follows a pen through all of its work. -/
theorem Follows.performAll (follows : sink.Follows before pen) (willing : TextWriter.Willing W)
    (ops : List SinkOp) :
    ∃ next, sink.performAll ops = .taken next ∧ next.Follows before (pen.performAll ops) := by
  induction ops generalizing sink pen with
  | nil => exact ⟨sink, rfl, follows⟩
  | cons op ops ih =>
      obtain ⟨between, performed, reached⟩ := follows.perform willing op
      obtain ⟨next, performedAll, followsOn⟩ := ih reached
      refine ⟨next, ?_, followsOn⟩
      rw [Sink.performAll, performed]
      exact performedAll

/-- Sinks that follow one pen hold the same text and are in the same state. -/
theorem Follows.agree {other : Sink W} (follows : sink.Follows before pen)
    (followsToo : other.Follows before pen) :
    held sink.out = held other.out ∧ sink.unit = other.unit ∧ sink.depth = other.depth ∧
      sink.last = other.last :=
  ⟨follows.text.trans followsToo.text.symm, follows.unit.trans followsToo.unit.symm,
    follows.depth.trans followsToo.depth.symm, follows.last.trans followsToo.last.symm⟩

omit [TextHolder W] in
/-- A line that was ended is not ended again. -/
theorem perform_newLine_newLine [TextWriter W] {ended : Sink W}
    (performed : sink.perform .newLine = .taken ended) :
    ended.perform .newLine = .taken ended := by
  have fresh : ended.atLineStart := by
    rw [perform, newLine] at performed
    cases start : sink.atLineStart with
    | true =>
        rw [start] at performed
        cases performed
        exact start
    | false =>
        rw [start] at performed
        simp only [Bool.false_eq_true, ↓reduceIte, emit] at performed
        split at performed
        · cases performed
          rfl
        · cases performed
  exact if_pos fresh

/-- **A sink writes one character at a time.** On a writer that takes everything, whatever it holds
at first, a sink does all that it is asked to do: it adds the text that a pen with the same indent
unit writes, and comes to the depth and the last character of the pen. From there on, two texts
after each other are written as the one text that they make up, and leave the sink in the same
state, and a line that was ended is not ended again. -/
theorem performAll_follows_pen {W : Type} [TextHolder W] (willing : TextWriter.Willing W)
    (unit : String) (out : W) (ops : List SinkOp) :
    ∃ sink, ({ out, unit } : Sink W).performAll ops = .taken sink ∧
      sink.Follows (held out) (({ unit } : Pen).performAll ops) ∧
      (∀ first second : String, ∃ apart together : Sink W,
        sink.performAll [.append first, .append second] = .taken apart ∧
        sink.performAll [.append (first ++ second)] = .taken together ∧
        held apart.out = held together.out ∧ apart.unit = together.unit ∧
        apart.depth = together.depth ∧ apart.last = together.last) ∧
      ∃ ended, sink.perform .newLine = .taken ended ∧
        ended.perform .newLine = .taken ended := by
  have start : ({ out, unit } : Sink W).Follows (held out) { unit } :=
    ⟨String.append_empty.symm, rfl, rfl, rfl⟩
  obtain ⟨sink, performed, follows⟩ := start.performAll willing ops
  refine ⟨sink, performed, follows, ?_, ?_⟩
  · intro first second
    obtain ⟨apart, performedApart, followsApart⟩ :=
      follows.performAll willing [.append first, .append second]
    obtain ⟨together, performedTogether, followsTogether⟩ :=
      follows.performAll willing [.append (first ++ second)]
    rw [Pen.performAll_append_text] at followsApart
    exact ⟨apart, together, performedApart, performedTogether, followsApart.agree followsTogether⟩
  · obtain ⟨ended, performedEnd, _⟩ := follows.perform willing .newLine
    exact ⟨ended, performedEnd, perform_newLine_newLine performedEnd⟩

/-- With a line feed in the indent unit, and in the middle of a line when the depth changes. -/
theorem performAll_follows_pen_sample :
    TextWriter.Willing String ∧
      ∃ sink, ({ out := "x", unit := "\n>" } : Sink String).performAll
          [.indent, .append "a\n\nb", .indent, .append "c\nd", .dedent, .dedent, .dedent, .newLine,
            .newLine, .append "e"] = .taken sink ∧
        sink.out = "x\n>a\n\n\n>bc\n\n>\n>d\ne" ∧ sink.depth = 0 ∧ sink.last = some 'e' := by
  refine ⟨TextWriter.willing_string, ?_⟩
  obtain ⟨sink, performed, follows, _⟩ := performAll_follows_pen TextWriter.willing_string
    "\n>" "x" [.indent, .append "a\n\nb", .indent, .append "c\nd", .dedent, .dedent, .dedent,
      .newLine, .newLine, .append "e"]
  refine ⟨sink, performed, follows.text.trans ?_, follows.depth.trans ?_, follows.last.trans ?_⟩
  · decide +kernel
  · decide +kernel
  · decide +kernel

end Sink

end NcLang
