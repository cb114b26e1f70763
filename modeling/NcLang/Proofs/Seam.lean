import Mathlib.Data.List.Basic
import NcLang.Proofs.Places
import NcLang.Proofs.Relocation

/-! # A text after another

Where a text is put after a line feed that ends another one, the two are read apart. Line breaks are
normalized on each side by itself, and the words of both sides stay words. The places of the second
text are moved by the size of the first (`Pos.shift`), in lines and in bytes, while columns stay
(`Source.tokens_after`).
-/

namespace NcLang

open Text

/-! ## Line breaks -/

/-- A cut that does not go through a pair leaves the same pairs on its sides. -/
theorem Text.joinPairs_append {first second : List Char}
    (apart : first.getLast? = some '\r' → second.head? ≠ some '\n') :
    joinPairs (first ++ second) = joinPairs first ++ joinPairs second := by
  fun_induction joinPairs first with
  | case1 rest ih =>
      have later : rest.getLast? = some '\r' → second.head? ≠ some '\n' := by
        intro ends
        apply apart
        rw [List.getLast?_cons, List.getLast?_cons, ends]
        rfl
      rw [List.cons_append, List.cons_append, joinPairs, ih later, List.cons_append]
  | case2 c rest noPair ih =>
      have later : rest.getLast? = some '\r' → second.head? ≠ some '\n' := by
        intro ends
        apply apart
        rw [List.getLast?_cons, ends]
        rfl
      have still : ∀ more, c = '\r' → rest ++ second = '\n' :: more → False := by
        rintro more rfl starts
        cases rest with
        | nil =>
            apply apart rfl
            change second = '\n' :: more at starts
            rw [starts]
            rfl
        | cons next rest =>
            rw [List.cons_append] at starts
            exact noPair rest rfl (by rw [(List.cons.inj starts).1])
      rw [List.cons_append, joinPairs.eq_2 _ _ still, ih later, List.cons_append]
  | case3 => rfl

theorem Text.toList_normalizeBreaks (text : String) :
    (normalizeBreaks text).toList = replaceReturns (joinPairs text.toList) :=
  String.toList_ofList

/-- What stands after a line feed is normalized by itself. -/
theorem Text.normalizeBreaks_append (first second : String) :
    normalizeBreaks (first ++ "\n" ++ second) =
      normalizeBreaks (first ++ "\n") ++ normalizeBreaks second := by
  have feed : "\n".toList = ['\n'] := rfl
  have apart : (first.toList ++ ['\n']).getLast? = some '\r' →
      second.toList.head? ≠ some '\n' := by
    rw [List.getLast?_concat]
    exact nofun
  apply String.toList_injective
  simp only [String.toList_append, toList_normalizeBreaks, feed]
  rw [joinPairs_append apart, replaceReturns, List.map_append]
  rfl

/-- A line feed after a text is one more character, unless it goes together with a carriage return
before it. -/
theorem Text.normalizeBreaks_feed (text : String) :
    (normalizeBreaks (text ++ "\n")).toList = (normalizeBreaks text).toList ++ ['\n'] ∨
      (normalizeBreaks (text ++ "\n")).toList = (normalizeBreaks text).toList ∧
        (normalizeBreaks text).toList.getLast? = some '\n' := by
  have feed : "\n".toList = ['\n'] := rfl
  simp only [String.toList_append, toList_normalizeBreaks, feed]
  by_cases ends : text.toList.getLast? = some '\r'
  · right
    obtain ⟨chars, split⟩ := List.getLast?_eq_some_iff.mp ends
    have alone : joinPairs (chars ++ ['\r']) = joinPairs chars ++ ['\r'] :=
      joinPairs_append fun _ => nofun
    have paired : joinPairs (chars ++ ['\r', '\n']) = joinPairs chars ++ ['\n'] :=
      joinPairs_append fun _ => nofun
    rw [split, List.append_assoc, List.cons_append, List.nil_append, paired, alone, replaceReturns,
      replaceReturns, List.map_append, List.map_append]
    exact ⟨rfl, List.getLast?_concat⟩
  · left
    rw [joinPairs_append fun returns => (ends returns).elim, replaceReturns, List.map_append]
    rfl

/-! ## Words before white space -/

theorem Text.isDigit_of_isWhiteSpace {c : Char} (space : isWhiteSpace c) : c.isDigit = false := by
  rw [Bool.eq_false_iff]
  intro digit
  rw [isWhiteSpace_of_isDigit digit] at space
  cases space

theorem Text.isWordChar_of_isWhiteSpace {c : Char} (space : isWhiteSpace c) :
    isWordChar c = false := by
  rw [Bool.eq_false_iff]
  intro inWord
  rw [isWhiteSpace_of_isWordChar inWord] at space
  cases space

/-- A run stays the longest one if something else follows that does not go on with it. -/
theorem Text.LongestRun.before {holds : Char → Bool} {run middle rest other : List Char}
    (longest : LongestRun holds run (middle ++ rest)) (stops : ∀ c ∈ other.head?, holds c = false) :
    LongestRun holds run (middle ++ other) := by
  refine ⟨longest.all, ?_⟩
  cases middle with
  | nil => exact stops
  | cons c middle => exact longest.stops

/-- A word that is a lexeme stays one where the text goes on with white space instead. -/
theorem Lexeme.SpelledBy.before_blank {word middle rest other : List Char} {lexeme : Lexeme}
    (spelled : lexeme.SpelledBy word (middle ++ rest))
    (blank : ∀ c ∈ other.head?, isWhiteSpace c) : lexeme.SpelledBy word (middle ++ other) := by
  have noDigit : ∀ c ∈ other.head?, c.isDigit = false := fun c first =>
    isDigit_of_isWhiteSpace (blank c first)
  have noWord : ∀ c ∈ other.head?, isWordChar c = false := fun c first =>
    isWordChar_of_isWhiteSpace (blank c first)
  generalize same : middle ++ rest = later at spelled
  cases spelled with
  | int nonempty longest fits =>
      subst same
      exact .int nonempty (longest.before noDigit) fits
  | keyword word letter longest reserved =>
      subst same
      exact .keyword word letter (longest.before noWord) reserved
  | name letter longest free =>
      subst same
      exact .name letter (longest.before noWord) free
  | symbol kind symbol => exact .symbol kind symbol

/-- Pieces stay as long as they can be if white space follows them. -/
theorem Piece.Fit.before_blank {pieces : List Piece} {rest other : List Char}
    (fit : Piece.Fit pieces rest) (blank : ∀ c ∈ other.head?, isWhiteSpace c) :
    Piece.Fit pieces other := by
  induction pieces with
  | nil => trivial
  | cons piece pieces ih =>
      obtain ⟨gap, spelled, fit⟩ := fit
      exact ⟨gap, spelled.before_blank blank, ih fit⟩

/-- Pieces do not end with white space. -/
theorem Piece.getLast?_text {pieces : List Piece} {rest : List Char} (fit : Piece.Fit pieces rest) :
    ∀ c ∈ (Piece.text pieces).getLast?, isWhiteSpace c = false := by
  intro c last
  rcases List.eq_nil_or_concat pieces with rfl | ⟨front, piece, rfl⟩
  · cases last
  · rw [List.concat_eq_append] at *
    have member : piece ∈ front ++ [piece] := List.mem_append_right front List.mem_cons_self
    obtain ⟨_, spelled⟩ := Piece.exists_spelledBy fit piece member
    have nonempty := Piece.word_ne_nil fit piece member
    have ending : (Piece.text (front ++ [piece])).getLast? = piece.word.getLast? := by
      rw [Piece.text, List.flatMap_append, List.flatMap_singleton, ← List.append_assoc,
        List.getLast?_append_of_ne_nil _ nonempty]
    rw [ending] at last
    exact spelled.noSpace c (List.mem_of_getLast? last)

/-- A text that is divided into words is still, with the same words, when a line feed is added. -/
theorem Division.exists_tail {text : String} (division : Division (normalizeBreaks text).toList) :
    ∃ tail, (normalizeBreaks (text ++ "\n")).toList = Piece.text division.pieces ++ tail ∧
      (∀ c ∈ tail, isWhiteSpace c) ∧ tail.getLast? = some '\n' := by
  rcases normalizeBreaks_feed text with added | ⟨same, ends⟩
  · refine ⟨division.tail ++ ['\n'], ?_, ?_, List.getLast?_concat⟩
    · rw [added, ← List.append_assoc, ← division.whole]
    · intro c member
      rcases List.mem_append.mp member with early | last
      · exact division.blank c early
      · rw [List.mem_singleton.mp last]
        decide
  · refine ⟨division.tail, same.trans division.whole, division.blank, ?_⟩
    -- The line feed at the end is no part of a word, so the white space after the words has it.
    have nonempty : division.tail ≠ [] := by
      intro empty
      rw [division.whole, empty, List.append_nil] at ends
      cases Piece.getLast?_text division.fit '\n' ends
    rw [division.whole, List.getLast?_append_of_ne_nil _ nonempty] at ends
    exact ends

/-! ## Places after a text -/

/-- The place in a source where a place of a text comes to be, if the text stands after another. -/
def Pos.shift (source : Source) (before : String) (pos : Pos) : Pos where
  line := pos.line + before.toList.count '\n'
  column := pos.column
  index := pos.index + before.utf8ByteSize
  source := source

/-- A span of a text, seen from a longer text that starts with something else. -/
def Span.shift (source : Source) (before : String) (span : Span) : Span where
  start := span.start.shift source before
  stop := span.stop.shift source before

theorem Span.keepsStretch_shift (source : Source) (before : String) :
    KeepsStretch (Span.shift source before) :=
  fun _ _ => rfl

/-- Steps over characters are the same in the longer text. -/
theorem Pos.shift_advance (source : Source) (before : String) (pos : Pos) (c : Char) :
    (pos.shift source before).advance c = (pos.advance c).shift source before := by
  by_cases feed : c = '\n'
  · simp only [Pos.shift, Pos.advance, feed, ↓reduceIte, Nat.add_right_comm]
  · simp only [Pos.shift, Pos.advance, feed, ↓reduceIte, Nat.add_right_comm]

theorem Pos.shift_after (source : Source) (before : String) (pos : Pos) (chars : List Char) :
    (pos.shift source before).after chars = (pos.after chars).shift source before := by
  induction chars generalizing pos with
  | nil => rfl
  | cons c chars ih =>
      change ((pos.shift source before).advance c).after chars = _
      rw [Pos.shift_advance, ih]
      rfl

/-- Places do not depend on the text that they are in. -/
theorem Source.posAfter_shift (joint source : Source) (before : List Char) :
    joint.posAfter before = (source.posAfter before).shift joint "" :=
  Pos.shift_after joint "" (Pos.origin source) before

/-- After a text that ends with a line feed, places start anew in a line of their own. -/
theorem Source.posAfter_feed (joint back : Source) {before : List Char}
    (ends : before.getLast? = some '\n') :
    joint.posAfter before = (Pos.origin back).shift joint (String.ofList before) := by
  obtain ⟨chars, split⟩ := List.getLast?_eq_some_iff.mp ends
  obtain ⟨line, column⟩ := joint.counts_posAfter before
  have index := joint.index_posAfter before
  have source : (joint.posAfter before).source = joint := Pos.source_after _ before
  have start : lastLine before = [] := by
    rw [split, lastLine_concat_feed]
  calc joint.posAfter before
      = ⟨(joint.posAfter before).line, (joint.posAfter before).column,
          (joint.posAfter before).index, (joint.posAfter before).source⟩ := rfl
    _ = ⟨before.count '\n', 0, (String.ofList before).utf8ByteSize, joint⟩ := by
        rw [line, column, index, source, start]
        rfl
    _ = (Pos.origin back).shift joint (String.ofList before) := by
        simp only [Pos.shift, Pos.origin, Nat.zero_add, String.toList_ofList]

/-- Tokens after some characters have the same places in all sources, but for the source that they
name. -/
theorem Piece.tokens_shift (joint source : Source) (before : List Char) (pieces : List Piece) :
    Piece.tokens joint before pieces =
      (Piece.tokens source before pieces).map (Token.map (Span.shift joint "")) := by
  induction pieces generalizing before with
  | nil => rfl
  | cons piece pieces ih =>
      rw [Piece.tokens, Piece.tokens, List.map_cons, ih, Source.spanOf,
        joint.posAfter_shift source, joint.posAfter_shift source]
      rfl

/-! ## Tokens after a text -/

/-- The lexer does the same from another place on. -/
theorem Token.scan_shift (source : Source) (before : String) (pos : Pos) (chars : List Char) :
    Token.scan (pos.shift source before) chars =
      Located.mapResult (Span.shift source before) (List.map (Token.map (Span.shift source before)))
        (Token.scan pos chars) := by
  fun_induction Token.scan pos chars with
  | case1 pos =>
      rw [Token.scan]
      rfl
  | case2 pos first rest space ih =>
      rw [Token.scan, if_pos space, Pos.shift_advance, ih]
  | case3 pos first rest noSpace more loc cause word =>
      rw [Token.scan, if_neg noSpace]
      simp only [more] at word
      simp only [word, Pos.shift_after]
      rfl
  | case4 pos first rest noSpace more loc lexeme word ih =>
      rw [Token.scan, if_neg noSpace]
      simp only [more] at word
      simp only [word, Pos.shift_after]
      have later : Token.scan ((pos.after (first :: more)).shift source before)
          (rest.dropWhile (Token.continues first)) = _ := ih
      rw [later]
      cases Token.scan loc.stop (rest.dropWhile (Token.continues first)) with
      | error fault => rfl
      | ok tokens => rfl

/-- The tokens of a source are those of the words at its front and then those of a text after them,
if white space that ends with a line feed stands between. -/
theorem Source.tokens_after {joint back : Source} {pieces : List Piece} {tail : List Char}
    (whole : joint.text.toList = Piece.text pieces ++ (tail ++ back.text.toList))
    (fit : Piece.Fit pieces (tail ++ back.text.toList)) (blank : ∀ c ∈ tail, isWhiteSpace c)
    (ends : tail.getLast? = some '\n') :
    let shift := Span.shift joint (String.ofList (Piece.text pieces ++ tail))
    joint.tokens = Located.mapResult shift
      (fun tokens => Piece.tokens joint [] pieces ++ tokens.map (Token.map shift))
      back.tokens := by
  intro shift
  have feed : (Piece.text pieces ++ tail).getLast? = some '\n' := by
    have nonempty : tail ≠ [] := by
      rintro rfl
      cases ends
    rw [List.getLast?_append_of_ne_nil _ nonempty, ends]
  have scanned := Piece.scan_text joint fit []
  rw [List.nil_append, Token.scan_gap blank, Source.after_posAfter, joint.posAfter_feed back feed,
    Token.scan_shift, ← whole] at scanned
  change Token.scan (joint.posAfter []) joint.text.toList =
    Located.mapResult shift _ (Token.scan (Pos.origin back) back.text.toList)
  rw [scanned]
  cases Token.scan (Pos.origin back) back.text.toList with
  | error fault => rfl
  | ok tokens => rfl

end NcLang
