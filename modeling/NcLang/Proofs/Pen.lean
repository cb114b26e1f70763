import NcLang.Emission

/-! # Writing one character at a time

A pen writes a text one character at a time, and writes the margin before the first character of
each line that has one. A sink on a text that takes everything writes what a pen writes
(`Sink.performAll_pen`). What an emission writes depends only on the depth and on whether the pen is
at the start of a line, so that emissions can be described one after the other (`Emission.Writes`).
-/

namespace NcLang

variable {α : Type}

/-- A text, the indent unit, the depth and the last character written. -/
structure Pen where
  text : String := ""
  unit : String
  depth : Nat := 0
  last : Option Char := none

/-- Whether a text has no line feed in it. -/
def Text.isOneLine (text : String) : Bool :=
  text.toList.all (· ≠ '\n')

theorem Text.isOneLine_append (first second : String) :
    isOneLine (first ++ second) = (isOneLine first && isOneLine second) := by
  rw [isOneLine, String.toList_append, List.all_append]
  rfl

/-- A text without line feeds is one line. -/
theorem Text.lines_of_isOneLine {chars : List Char} (oneLine : chars.all (· ≠ '\n')) :
    lines chars = (chars, []) := by
  induction chars with
  | nil => rfl
  | cons c chars ih =>
      rw [List.all_cons, Bool.and_eq_true] at oneLine
      have inLine : c ≠ '\n' := of_decide_eq_true oneLine.1
      rw [lines, ih oneLine.2]
      exact if_neg inLine

namespace Pen

/-- Whether the next character begins a line. The first one does. -/
def atLineStart (pen : Pen) : Bool :=
  pen.last.all (· = '\n')

/-- The margin of a line at the current depth. -/
def margin (pen : Pen) : String :=
  String.join (List.replicate pen.depth pen.unit)

/-- What is written before a character: the margin at the start of a line that is not empty. -/
def marginBefore (pen : Pen) (c : Char) : String :=
  if c ≠ '\n' ∧ pen.atLineStart then pen.margin else ""

/-- Writes a character, after the margin if it is the first one of its line. -/
def put (pen : Pen) (c : Char) : Pen :=
  { pen with text := pen.text ++ pen.marginBefore c ++ String.singleton c, last := some c }

/-- Writes characters, one after the other. -/
def putAll (pen : Pen) (chars : List Char) : Pen :=
  chars.foldl put pen

/-- Does what a sink would do. -/
def perform (pen : Pen) : SinkOp → Pen
  | .indent => { pen with depth := pen.depth + 1 }
  | .dedent => { pen with depth := pen.depth - 1 }
  | .append text => pen.putAll text.toList
  | .newLine => if pen.atLineStart then pen else pen.put '\n'

/-- Performs operations, one after the other. -/
def performAll (pen : Pen) (ops : List SinkOp) : Pen :=
  ops.foldl perform pen

@[simp] theorem putAll_cons (pen : Pen) (c : Char) (chars : List Char) :
    pen.putAll (c :: chars) = (pen.put c).putAll chars :=
  rfl

@[simp] theorem performAll_append (pen : Pen) (first second : List SinkOp) :
    pen.performAll (first ++ second) = (pen.performAll first).performAll second :=
  List.foldl_append

/-! ## Lines at once -/

/-- A line that is not the first of its text, with the line feed before it. -/
def lineText (pen : Pen) (line : List Char) : String :=
  if line = [] then "\n" else "\n" ++ pen.margin ++ String.ofList line

/-- A text line by line: the first line goes on from where the pen is. -/
def linesText (pen : Pen) (first : List Char) (further : List (List Char)) : String :=
  (if pen.atLineStart ∧ first ≠ [] then pen.margin else "") ++ String.ofList first ++
    String.join (further.map pen.lineText)

/-- A line feed ends the first line of what is written. -/
theorem linesText_newLine (pen : Pen) (first : List Char) (further : List (List Char)) :
    pen.marginBefore '\n' ++ String.singleton '\n' ++ (pen.put '\n').linesText first further =
      pen.linesText [] (first :: further) := by
  have start : (pen.put '\n').atLineStart = true := rfl
  have further' : (pen.put '\n').lineText = pen.lineText := rfl
  have margin' : (pen.put '\n').margin = pen.margin := rfl
  simp only [linesText, start, further', margin', marginBefore, ne_eq, not_true_eq_false,
    false_and, and_false, true_and, ↓reduceIte, List.map_cons, String.join_cons, lineText]
  by_cases empty : first = []
  · simp only [empty, not_true_eq_false, ↓reduceIte, String.ofList_nil, String.empty_append]
    rfl
  · simp only [empty, not_false_eq_true, ↓reduceIte, String.ofList_nil, String.empty_append,
      String.append_assoc]
    rfl

/-- Any other character goes on with the first line. -/
theorem linesText_cons (pen : Pen) {c : Char} (inLine : c ≠ '\n') (first : List Char)
    (further : List (List Char)) :
    pen.marginBefore c ++ String.singleton c ++ (pen.put c).linesText first further =
      pen.linesText (c :: first) further := by
  have start : (pen.put c).atLineStart = false := decide_eq_false inLine
  have further' : (pen.put c).lineText = pen.lineText := rfl
  simp only [linesText, start, further', marginBefore, inLine, ne_eq, not_false_eq_true, true_and,
    Bool.false_eq_true, false_and, ↓reduceIte, List.cons_ne_nil, and_true, String.ofList_cons,
    String.empty_append, String.append_assoc]

/-- Writing characters one after the other is writing them line by line. -/
theorem putAll_eq (pen : Pen) (chars : List Char) :
    pen.putAll chars =
      { pen with
        text := pen.text ++ pen.linesText (Text.lines chars).1 (Text.lines chars).2
        last := chars.getLast?.or pen.last } := by
  induction chars generalizing pen with
  | nil => simp [putAll, linesText, Text.lines]
  | cons c chars ih =>
      have last : (c :: chars).getLast?.or pen.last = chars.getLast?.or (some c) := by
        cases found : chars.getLast? with
        | none =>
            rw [List.getLast?_eq_none_iff.mp found]
            rfl
        | some final =>
            rw [List.getLast?_cons, found]
            rfl
      rw [putAll_cons, ih, last]
      -- After a line feed the rest of the text starts a line of its own, else it goes on with this.
      by_cases feed : c = '\n'
      · subst feed
        have written := linesText_newLine pen (Text.lines chars).1 (Text.lines chars).2
        simp only [Text.lines, ↓reduceIte, put, ← written, String.append_assoc]
      · have written := linesText_cons pen feed (Text.lines chars).1 (Text.lines chars).2
        simp only [Text.lines, feed, ↓reduceIte, put, ← written, String.append_assoc]

end Pen

/-! ## A sink writes what a pen writes -/

/-- The pen that has written what a sink has. -/
def Sink.pen (sink : Sink String) : Pen where
  text := sink.out
  unit := sink.unit
  depth := sink.depth
  last := sink.last

theorem TextWriter.writeAll_string (text : String) (pieces : List String) :
    TextWriter.writeAll text pieces = .taken (text ++ String.join pieces) := by
  induction pieces generalizing text with
  | nil =>
      rw [String.join_nil, String.append_empty]
      rfl
  | cons piece pieces ih =>
      rw [String.join_cons, ← String.append_assoc, ← ih]
      rfl

/-- The pieces that a sink writes for a line are the line that a pen writes. -/
theorem Sink.join_furtherLine (sink : Sink String) (line : List Char) :
    String.join (sink.furtherLine line) = sink.pen.lineText line := by
  rw [Sink.furtherLine, Pen.lineText]
  by_cases empty : line = []
  · simp only [empty, ↓reduceIte, String.join_cons, String.join_nil, String.append_empty]
  · simp only [empty, ↓reduceIte, List.cons_append, String.join_cons, String.join_append,
      String.join_nil, String.append_empty, String.append_assoc]
    rfl

/-- The pieces that a sink writes for a text are the text line by line. -/
theorem Sink.join_pieces (sink : Sink String) (text : String) :
    String.join (sink.pieces text) =
      sink.pen.linesText (Text.lines text.toList).1 (Text.lines text.toList).2 := by
  have further (lines : List (List Char)) :
      String.join (lines.flatMap sink.furtherLine) = String.join (lines.map sink.pen.lineText) := by
    induction lines with
    | nil => rfl
    | cons line lines ih =>
        rw [List.flatMap_cons, List.map_cons, String.join_append, String.join_cons, ih,
          Sink.join_furtherLine]
  have margin (starts : Prop) [Decidable starts] :
      String.join (if starts then sink.margin else []) =
        if starts then sink.pen.margin else "" := by
    split
    · rfl
    · exact String.join_nil
  rw [Sink.pieces, Pen.linesText, String.join_append, String.join_cons, further, margin,
    String.append_assoc]
  rfl

/-- A sink over a text takes every operation, and does with it what a pen does. -/
theorem Sink.perform_pen (sink : Sink String) (op : SinkOp) :
    ∃ next, sink.perform op = .taken next ∧ next.pen = sink.pen.perform op := by
  cases op with
  | indent => exact ⟨_, rfl, rfl⟩
  | dedent => exact ⟨_, rfl, rfl⟩
  | append text =>
      rw [Sink.perform, Sink.append, Pen.perform, Pen.putAll_eq]
      cases final : text.toList.getLast? with
      | none =>
          rw [List.getLast?_eq_none_iff.mp final]
          refine ⟨sink, rfl, ?_⟩
          simp [Text.lines, Pen.linesText, Sink.pen]
      | some last =>
          simp only [Sink.emit, TextWriter.writeAll_string, Sink.join_pieces]
          exact ⟨_, rfl, rfl⟩
  | newLine =>
      rw [Sink.perform, Sink.newLine, Pen.perform]
      have start : sink.pen.atLineStart = sink.atLineStart := rfl
      rw [start]
      cases fresh : sink.atLineStart with
      | true => exact ⟨sink, rfl, rfl⟩
      | false =>
          refine ⟨_, rfl, ?_⟩
          simp [Sink.pen, Pen.put, Pen.marginBefore]

/-- A sink on a text writes what a pen writes, whatever it is asked to do. -/
theorem Sink.performAll_pen (sink : Sink String) (ops : List SinkOp) :
    ∃ next, sink.performAll ops = .taken next ∧ next.pen = sink.pen.performAll ops := by
  induction ops generalizing sink with
  | nil => exact ⟨sink, rfl, rfl⟩
  | cons op ops ih =>
      obtain ⟨between, performed, pen⟩ := sink.perform_pen op
      obtain ⟨next, performedAll, penAfter⟩ := ih between
      refine ⟨next, ?_, ?_⟩
      · rw [Sink.performAll, performed]
        exact performedAll
      · rw [penAfter, pen]
        rfl

/-! ## What an emission writes -/

/-- All of a pen that decides where it writes margins. -/
structure Pen.Place where
  depth : Nat
  fresh : Bool

/-- The place of a pen: its depth, and whether it is at the start of a line. -/
def Pen.place (pen : Pen) : Pen.Place where
  depth := pen.depth
  fresh := pen.atLineStart

/-- A pen that has added a text and come to a place. -/
structure Pen.Moved (pen : Pen) (added : String) (after : Pen.Place) (next : Pen) : Prop where
  text : next.text = pen.text ++ added
  unit : next.unit = pen.unit
  place : next.place = after

/-- An emission without a fault that adds a text and leads from one place to another. -/
structure Emission.Writes (unit : String) (before : Pen.Place) (emission : Emission α)
    (added : String) (after : Pen.Place) : Prop where
  complete : emission.fault = none
  moved : ∀ pen : Pen, pen.unit = unit → pen.place = before →
    pen.Moved added after (pen.performAll emission.ops)

namespace Emission

variable {unit added added' text : String} {before between after : Pen.Place} {depth : Nat}
  {first second : Emission α}

theorem Writes.nil : Writes unit before ({} : Emission α) "" before where
  complete := rfl
  moved _ _ placed := ⟨String.append_empty.symm, rfl, placed⟩

/-- Emissions that fit together write their texts one after the other. -/
theorem Writes.append (firstWrites : first.Writes unit before added between)
    (secondWrites : second.Writes unit between added' after) :
    (first ++ second).Writes unit before (added ++ added') after := by
  have joined : first ++ second = { ops := first.ops ++ second.ops, fault := second.fault } := by
    change Emission.append first second = _
    rw [Emission.append, firstWrites.complete]
  rw [joined]
  refine ⟨secondWrites.complete, ?_⟩
  intro pen unitEq placed
  have moved := firstWrites.moved pen unitEq placed
  have movedOn := secondWrites.moved _ (moved.unit.trans unitEq) moved.place
  rw [Pen.performAll_append]
  refine ⟨?_, movedOn.unit.trans moved.unit, movedOn.place⟩
  rw [movedOn.text, moved.text, String.append_assoc]

theorem writes_indent (fresh : Bool) :
    (Emission.op .indent : Emission α).Writes unit ⟨depth, fresh⟩ "" ⟨depth + 1, fresh⟩ where
  complete := rfl
  moved pen _ placed := by
    cases placed
    exact ⟨String.append_empty.symm, rfl, rfl⟩

theorem writes_dedent (fresh : Bool) :
    (Emission.op .dedent : Emission α).Writes unit ⟨depth + 1, fresh⟩ "" ⟨depth, fresh⟩ where
  complete := rfl
  moved pen _ placed := by
    obtain ⟨deep, start⟩ := Pen.Place.mk.inj placed
    refine ⟨String.append_empty.symm, rfl, ?_⟩
    change Pen.Place.mk (pen.depth - 1) pen.atLineStart = _
    rw [deep, start]
    rfl

theorem writes_newLine_fresh :
    (Emission.op .newLine : Emission α).Writes unit ⟨depth, true⟩ "" ⟨depth, true⟩ where
  complete := rfl
  moved pen _ placed := by
    obtain ⟨_, start⟩ := Pen.Place.mk.inj placed
    have stays : pen.performAll [.newLine] = pen := if_pos start
    change pen.Moved "" _ (pen.performAll [.newLine])
    rw [stays]
    exact ⟨String.append_empty.symm, rfl, placed⟩

theorem writes_feed (fresh : Bool) :
    (Emission.text "\n" : Emission α).Writes unit ⟨depth, fresh⟩ "\n" ⟨depth, true⟩ where
  complete := rfl
  moved pen _ placed := by
    obtain ⟨deep, _⟩ := Pen.Place.mk.inj placed
    refine ⟨?_, rfl, ?_⟩
    · change pen.text ++ pen.marginBefore '\n' ++ String.singleton '\n' = _
      rw [Pen.marginBefore, if_neg (fun both => both.1 rfl), String.append_empty]
      rfl
    · change Pen.Place.mk pen.depth true = _
      rw [deep]

theorem writes_newLine_inLine :
    (Emission.op .newLine : Emission α).Writes unit ⟨depth, false⟩ "\n" ⟨depth, true⟩ where
  complete := rfl
  moved pen unitEq placed := by
    obtain ⟨_, start⟩ := Pen.Place.mk.inj placed
    have feeds : pen.performAll [.newLine] = pen.performAll [.append "\n"] :=
      if_neg (Bool.not_eq_true _ ▸ start)
    change pen.Moved "\n" _ (pen.performAll [.newLine])
    rw [feeds]
    exact (writes_feed (α := α) false).moved pen unitEq placed

/-- A text is written part by part. -/
theorem Writes.text_append {added added' : String}
    (firstWrites : (Emission.text added : Emission α).Writes unit before added between)
    (secondWrites : (Emission.text added' : Emission α).Writes unit between added' after) :
    (Emission.text (added ++ added') : Emission α).Writes unit before (added ++ added') after := by
  have whole := firstWrites.append secondWrites
  refine ⟨rfl, fun pen unitEq placed => ?_⟩
  have same : pen.performAll (Emission.text (added ++ added') : Emission α).ops =
      pen.performAll (Emission.text added ++ Emission.text added' : Emission α).ops := by
    change pen.putAll (added ++ added').toList = (pen.putAll added.toList).putAll added'.toList
    rw [String.toList_append, Pen.putAll, List.foldl_append]
    rfl
  rw [same]
  exact whole.moved pen unitEq placed

/-- After a text without line feeds, the pen is within a line. -/
theorem place_putAll_of_isOneLine (pen : Pen) (oneLine : Text.isOneLine text)
    (starts : text ≠ "" ∨ pen.atLineStart = false) :
    (pen.putAll text.toList).place = ⟨pen.depth, false⟩ := by
  rw [Pen.putAll_eq]
  cases final : text.toList.getLast? with
  | none =>
      have empty : text = "" := String.toList_eq_nil_iff.mp (List.getLast?_eq_none_iff.mp final)
      have inLine := starts.resolve_left fun nonempty => nonempty empty
      change Pen.Place.mk pen.depth pen.atLineStart = _
      rw [inLine]
  | some last =>
      have inLine := List.all_eq_true.mp oneLine last (List.mem_of_getLast? final)
      change Pen.Place.mk pen.depth (decide (last = '\n')) = _
      rw [decide_eq_false (of_decide_eq_true inLine)]

/-- A text on one line, where the line has begun. -/
theorem writes_inLine (oneLine : Text.isOneLine text) :
    (Emission.text text : Emission α).Writes unit ⟨depth, false⟩ text ⟨depth, false⟩ where
  complete := rfl
  moved pen _ placed := by
    obtain ⟨deep, start⟩ := Pen.Place.mk.inj placed
    change pen.Moved text _ (pen.putAll text.toList)
    have place := place_putAll_of_isOneLine pen oneLine (.inr start)
    rw [deep] at place
    refine ⟨?_, ?_, place⟩
    · rw [Pen.putAll_eq, Text.lines_of_isOneLine oneLine]
      simp [Pen.linesText, start]
    · rw [Pen.putAll_eq]

/-- A text on one line, which it begins. -/
theorem writes_fresh (oneLine : Text.isOneLine text) (nonempty : text ≠ "") :
    (Emission.text text : Emission α).Writes unit ⟨depth, true⟩
      (String.join (List.replicate depth unit) ++ text) ⟨depth, false⟩ where
  complete := rfl
  moved pen unitEq placed := by
    obtain ⟨deep, start⟩ := Pen.Place.mk.inj placed
    change pen.Moved _ _ (pen.putAll text.toList)
    have place := place_putAll_of_isOneLine pen oneLine (.inl nonempty)
    rw [deep] at place
    refine ⟨?_, ?_, place⟩
    · have chars : text.toList ≠ [] := fun empty => nonempty (String.toList_eq_nil_iff.mp empty)
      rw [Pen.putAll_eq, Text.lines_of_isOneLine oneLine]
      simp [Pen.linesText, start, chars, Pen.margin, deep, unitEq]
    · rw [Pen.putAll_eq]

end Emission

end NcLang
