import Mathlib.Data.List.Induction
import NcLang.Proofs.PenRefinement

/-! # Sinks that go on after a refusal

A sink takes note of the last character it passed on when all of a text was taken. If the writer
refuses a piece in the middle of a text, the pieces before it are written and the note is that of
the text before (`Sink.attemptAll_out_of_step`). So the note of a sink that goes on is right as long
as each text that is refused is refused at once, and it is right again as soon as a text is taken
(`Sink.attemptAll_inStep_iff`).
-/

namespace NcLang

open TextHolder (held held_refused)

/-! ## The last character of a text that is written -/

/-- A text that is written ends in its last character, whatever margins are written with it. -/
theorem Pen.getLast?_putAll (pen : Pen) (chars : List Char) :
    (pen.putAll chars).text.toList.getLast? = chars.getLast?.or pen.text.toList.getLast? := by
  induction chars generalizing pen with
  | nil => rfl
  | cons c chars ih =>
      have written : (pen.put c).text.toList.getLast? = some c := by
        simp [Pen.put]
      rw [Pen.putAll_cons, ih, written, List.getLast?_cons]
      cases chars.getLast? with
      | none => rfl
      | some final => rfl

namespace Sink

variable {W : Type}

/-- What a sink passes on of a text ends as the text does. -/
theorem getLast?_calls_append (sink : Sink W) (text : String) :
    (String.join (sink.calls (.append text))).toList.getLast? = text.toList.getLast? := by
  have written := perform_pen_onto sink "" (.append text)
  have ends := Pen.getLast?_putAll (sink.onto "").pen text.toList
  change (sink.onto "").pen.putAll text.toList = _ at written
  rw [written] at ends
  change (String.toList ("" ++ String.join (sink.calls (.append text)))).getLast? =
    text.toList.getLast?.or none at ends
  rwa [String.empty_append, Option.or_none] at ends

/-- A sink notes the last character of what it passes on, if it passes anything on. -/
theorem last_moved (sink : Sink W) (op : SinkOp) :
    (sink.moved op).last = (String.join (sink.calls op)).toList.getLast?.or sink.last := by
  cases op with
  | indent => rfl
  | dedent => rfl
  | append text =>
      rw [getLast?_calls_append]
      rfl
  | newLine =>
      rw [moved, calls]
      cases sink.atLineStart with
      | true => rfl
      | false => rfl

/-! ## Going on -/

section Attempts

variable [TextWriter W]

/-- The sink after it was asked for one thing, whether it was done or not. -/
def attempt (sink : Sink W) (op : SinkOp) : Sink W :=
  (sink.perform op).writer

/-- The sink after it was asked for one thing after the other, whether they were done or not. -/
def attemptAll (sink : Sink W) (ops : List SinkOp) : Sink W :=
  ops.foldl attempt sink

theorem attemptAll_concat (sink : Sink W) (ops : List SinkOp) (op : SinkOp) :
    sink.attemptAll (ops ++ [op]) = (sink.attemptAll ops).attempt op := by
  rw [attemptAll, attemptAll, List.foldl_append]
  rfl

end Attempts

variable [TextHolder W] {sink : Sink W} {before passed : String} {op : SinkOp}

/-- A sink from which its writer has taken a text, and which knows how that text ends. -/
structure InStep (sink : Sink W) (before passed : String) : Prop where
  text : held sink.out = before ++ passed
  last : sink.last = passed.toList.getLast?

/-- What the writer takes of one thing: all of it, and the sink knows how it ends, or some part that
the sink does not take note of. -/
theorem attempt_cases (sink : Sink W) (op : SinkOp) :
    ∃ added, held (sink.attempt op).out = held sink.out ++ added ∧
      ((sink.perform op).isTaken = true ∧ added = String.join (sink.calls op) ∧
          (sink.attempt op).last = added.toList.getLast?.or sink.last ∨
        (sink.perform op).isTaken = false ∧ (sink.attempt op).last = sink.last) := by
  rw [attempt, perform_eq]
  cases answer : TextWriter.writeAll sink.out (sink.calls op) with
  | taken next =>
      exact ⟨_, TextHolder.held_writeAll answer, .inl ⟨rfl, rfl, last_moved sink op⟩⟩
  | refused next =>
      obtain ⟨accepted, piece, later, between, _, taken, refused⟩ :=
        TextWriter.exists_refused answer
      refine ⟨String.join accepted, ?_, .inr ⟨rfl, rfl⟩⟩
      change held next = _
      rw [held_refused refused]
      exact TextHolder.held_writeAll taken

/-- Whether a sink may go on after one thing: it was done, or the writer took nothing of it, or what
it took ends in the character that the sink knows. -/
def Unharmed (sink : Sink W) (op : SinkOp) : Prop :=
  (sink.perform op).isTaken ∨ ∃ added, held (sink.attempt op).out = held sink.out ++ added ∧
    (added = "" ∨ added.toList.getLast? = sink.last)

/-- A sink that is in step stays so exactly if it is unharmed. -/
theorem InStep.attempt_iff (inStep : sink.InStep before passed) :
    (∃ passed', (sink.attempt op).InStep before passed') ↔ sink.Unharmed op := by
  obtain ⟨added, grown, outcome⟩ := attempt_cases sink op
  have text : held (sink.attempt op).out = before ++ (passed ++ added) := by
    rw [grown, inStep.text, String.append_assoc]
  have ends : (passed ++ added).toList.getLast? = added.toList.getLast?.or sink.last := by
    rw [String.toList_append, List.getLast?_append, inStep.last]
  constructor
  · rintro ⟨passed', text', last'⟩
    obtain ⟨done, _⟩ | ⟨_, kept⟩ := outcome
    · exact .inl done
    · have same : passed ++ added = passed' :=
        (String.append_right_inj _).mp (text.symm.trans text')
      rw [kept, ← same, ends] at last'
      refine .inr ⟨added, grown, ?_⟩
      cases final : added.toList.getLast? with
      | none => exact .inl (String.toList_eq_nil_iff.mp (List.getLast?_eq_none_iff.mp final))
      | some c =>
          rw [final] at last'
          exact .inr last'.symm
  · intro unharmed
    refine ⟨passed ++ added, text, ?_⟩
    rw [ends]
    obtain ⟨_, _, known⟩ | ⟨undone, kept⟩ := outcome
    · exact known
    · obtain done | ⟨added', grown', known⟩ := unharmed
      · rw [undone] at done
        cases done
      · have same : added = added' := (String.append_right_inj _).mp (grown.symm.trans grown')
        rw [kept, same]
        obtain rfl | known := known
        · rfl
        · rw [known, Option.or_self]

/-- The writer of a sink that goes on only adds to its text. -/
theorem exists_passed (sink : Sink W) (ops : List SinkOp) :
    ∃ passed, held (sink.attemptAll ops).out = held sink.out ++ passed := by
  induction ops using List.reverseRecOn with
  | nil => exact ⟨"", String.append_empty.symm⟩
  | append_singleton ops op ih =>
      obtain ⟨passed, text⟩ := ih
      obtain ⟨added, grown, _⟩ := attempt_cases (sink.attemptAll ops) op
      refine ⟨passed ++ added, ?_⟩
      rw [attemptAll_concat, grown, text, String.append_assoc]

/-- **When a sink that goes on after refusals knows where it stands.** On a writer that takes each
piece whole or leaves its text as it is, a sink knows after every step the last character that was
taken from it exactly if it is unharmed in every step: each thing that is not done is refused before
the writer takes any of it, or where the part that is taken happens to end in the character of
before. Whatever was refused, a text that is taken sets the sink right. -/
theorem attemptAll_inStep_iff {W : Type} [TextHolder W] (unit : String) (out : W)
    (ops : List SinkOp) :
    let start : Sink W := { out, unit }
    ((∀ done later, ops = done ++ later →
        ∃ passed, (start.attemptAll done).InStep (held out) passed) ↔
      ∀ done op later, ops = done ++ op :: later → (start.attemptAll done).Unharmed op) ∧
    ∀ text, text ≠ "" → ((start.attemptAll ops).perform (.append text)).isTaken →
      ∃ passed, (start.attemptAll (ops ++ [.append text])).InStep (held out) passed := by
  intro start
  refine ⟨⟨?_, ?_⟩, ?_⟩
  · intro always done op later split
    obtain ⟨passed, inStep⟩ := always done (op :: later) split
    rw [← inStep.attempt_iff, ← attemptAll_concat]
    exact always (done ++ [op]) later (by rw [split, List.append_assoc, List.singleton_append])
  · intro unharmed done
    induction done using List.reverseRecOn with
    | nil => exact fun _ _ => ⟨"", String.append_empty.symm, rfl⟩
    | append_singleton done op ih =>
        intro later split
        rw [List.append_assoc, List.singleton_append] at split
        obtain ⟨passed, inStep⟩ := ih (op :: later) split
        rw [attemptAll_concat, inStep.attempt_iff]
        exact unharmed done op later split
  · intro text nonempty taken
    obtain ⟨passed, written⟩ := exists_passed start ops
    obtain ⟨added, grown, outcome⟩ := attempt_cases (start.attemptAll ops) (.append text)
    obtain ⟨_, rfl, known⟩ | ⟨refused, _⟩ := outcome
    · have ends := getLast?_calls_append (start.attemptAll ops) text
      have final : text.toList.getLast? ≠ none := by
        rw [ne_eq, List.getLast?_eq_none_iff, String.toList_eq_nil_iff]
        exact nonempty
      obtain ⟨last, final⟩ := Option.ne_none_iff_exists'.mp final
      refine ⟨passed ++ String.join ((start.attemptAll ops).calls (.append text)), ?_, ?_⟩
      · rw [attemptAll_concat, grown, written, String.append_assoc]
      · rw [attemptAll_concat, known, String.toList_append, List.getLast?_append, ends, final]
        rfl
    · rw [refused] at taken
      cases taken

/-- A sink on a text of at most ten bytes. -/
def sampleShort : Sink BoundedText where
  out := { limit := some 10 }
  unit := "> "

/-- After a text that was cut short, the next one that is taken sets the sink right. -/
theorem attemptAll_inStep_sample :
    ((sampleShort.attemptAll [.indent, .append "a\nlonglonglong"]).perform (.append "b")).isTaken ∧
      ∃ passed, (sampleShort.attemptAll [.indent, .append "a\nlonglonglong", .append "b"]).InStep
        "" passed := by
  have taken : ((sampleShort.attemptAll
      [.indent, .append "a\nlonglonglong"]).perform (.append "b")).isTaken := by
    decide +kernel
  exact ⟨taken, (attemptAll_inStep_iff "> " sampleShort.out
    [.indent, .append "a\nlonglonglong"]).2 "b" (by decide) taken⟩

/-- A refusal in the middle of a text leaves the sink with a wrong note. The margin that was the
last thing to be taken is then written a second time on the same line. -/
theorem attemptAll_out_of_step :
    (¬∃ passed, (sampleShort.attemptAll [.indent, .append "a\nlonglonglong"]).InStep "" passed) ∧
      (sampleShort.attemptAll [.indent, .append "a\nlonglonglong", .append "b"]).out.text =
        "> a\n> > b" := by
  constructor
  · rintro ⟨passed, text, last⟩
    have taken : held (sampleShort.attemptAll [.indent, .append "a\nlonglonglong"]).out =
        "> a\n> " := by
      decide +kernel
    rw [taken, String.empty_append] at text
    rw [← text] at last
    revert last
    decide +kernel
  · decide +kernel

end Sink

end NcLang
