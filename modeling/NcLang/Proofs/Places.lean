import Mathlib.Data.List.Induction
import NcLang.Proofs.Division

/-! # Places can be recounted

A place is exact when its counters can be told from the text alone: the characters before it have as
many bytes as its index says, as many line feeds as its line, and as many characters after the last
line feed as its column. All places that the lexer gives are exact, and the tokens follow each other
with nothing but white space around them (`Source.tokens_exact`).
-/

namespace NcLang

open Text

/-! ## Exact places -/

/-- The characters after the last line feed. -/
def Text.lastLine (chars : List Char) : List Char :=
  (chars.reverse.takeWhile (· ≠ '\n')).reverse

/-- A place between two characters of a source that counts what is before it. In a text of fewer
than `UInt32.size` characters, its line and its column are numbers of 32 bits. -/
structure Pos.IsExact (pos : Pos) (source : Source) : Prop where
  source_eq : pos.source = source
  counts : ∃ before after, source.text.toList = before ++ after ∧
    pos.index = (String.ofList before).utf8ByteSize ∧
    pos.line = before.count '\n' ∧ pos.column = (lastLine before).length
  counters : source.text.length < UInt32.size →
    pos.line < UInt32.size ∧ pos.column < UInt32.size

/-- Whether both ends of a span are exact. -/
def Span.IsExact (span : Span) (source : Source) : Prop :=
  span.start.IsExact source ∧ span.stop.IsExact source

theorem Text.lastLine_concat_feed (chars : List Char) : lastLine (chars ++ ['\n']) = [] := by
  simp [lastLine]

theorem Text.lastLine_concat (chars : List Char) {c : Char} (inLine : c ≠ '\n') :
    lastLine (chars ++ [c]) = lastLine chars ++ [c] := by
  simp [lastLine, inLine]

theorem Text.length_lastLine_le (chars : List Char) : (lastLine chars).length ≤ chars.length := by
  have shorter := (List.takeWhile_sublist (· ≠ '\n') (l := chars.reverse)).length_le
  rw [lastLine, List.length_reverse]
  rw [List.length_reverse] at shorter
  exact shorter

/-- The place after one more character is one step further. -/
theorem Source.posAfter_concat (source : Source) (before : List Char) (c : Char) :
    source.posAfter (before ++ [c]) = (source.posAfter before).advance c :=
  (source.after_posAfter before [c]).symm

/-- The line and the column count what they should, whatever the characters before a place are. -/
theorem Source.counts_posAfter (source : Source) (before : List Char) :
    (source.posAfter before).line = before.count '\n' ∧
      (source.posAfter before).column = (lastLine before).length := by
  -- Counters change with the last character, so the induction takes characters off the end.
  induction before using List.reverseRecOn with
  | nil => exact ⟨rfl, rfl⟩
  | append_singleton before c ih =>
      obtain ⟨line, column⟩ := ih
      rw [source.posAfter_concat]
      by_cases feed : c = '\n'
      · subst feed
        simp [Pos.advance, line, lastLine_concat_feed]
      · simp [Pos.advance, feed, line, column, lastLine_concat before feed]

/-- The place after the beginning of a text recounts its lines, columns and bytes. -/
theorem Source.isExact_posAfter (source : Source) {before after : List Char}
    (whole : source.text.toList = before ++ after) :
    (source.posAfter before).IsExact source := by
  obtain ⟨line, column⟩ := source.counts_posAfter before
  refine ⟨Pos.source_after _ before, ⟨before, after, whole, source.index_posAfter before, line,
    column⟩, ?_⟩
  intro short
  have fewer : before.length ≤ source.text.length := by
    rw [← String.length_toList, whole, List.length_append]
    exact Nat.le_add_right _ _
  have feeds := List.count_le_length (a := '\n') (l := before)
  have chars := length_lastLine_le before
  omega

/-- The span of a word within a text is exact. -/
theorem Source.isExact_spanOf (source : Source) {before word rest : List Char}
    (whole : source.text.toList = before ++ (word ++ rest)) :
    (source.spanOf before word).IsExact source := by
  have beyond : source.text.toList = (before ++ word) ++ rest := by
    rw [whole, List.append_assoc]
  exact ⟨source.isExact_posAfter whole, source.isExact_posAfter beyond⟩

theorem Source.isExact_eofToken (source : Source) : source.eofToken.loc.IsExact source := by
  have ending := source.isExact_posAfter (List.append_nil source.text.toList).symm
  exact ⟨ending, ending⟩

/-- The tokens of pieces that stand in a source are at exact places. -/
theorem Piece.isExact_tokens (source : Source) {pieces : List Piece} {before rest : List Char}
    (whole : source.text.toList = before ++ (Piece.text pieces ++ rest)) :
    ∀ token ∈ Piece.tokens source before pieces, token.loc.IsExact source := by
  induction pieces generalizing before with
  | nil => exact fun _ member => (List.not_mem_nil member).elim
  | cons piece pieces ih =>
      have here : source.text.toList =
          (before ++ piece.gap) ++ (piece.word ++ (Piece.text pieces ++ rest)) := by
        rw [whole]
        simp only [Piece.text_cons, List.append_assoc]
      have later : source.text.toList =
          (before ++ piece.gap ++ piece.word) ++ (Piece.text pieces ++ rest) := by
        rw [here]
        simp only [List.append_assoc]
      intro token member
      rcases List.mem_cons.mp member with rfl | member
      · exact source.isExact_spanOf here
      · exact ih later token member

/-! ## Gaps -/

/-- Only white space stands between two byte indices of a text. -/
def Text.BlankBetween (text : String) (start stop : Nat) : Prop :=
  ∃ gap, slice? text start stop = some gap ∧ ∀ c ∈ gap.toList, isWhiteSpace c

/-- Some stretches follow each other from a byte index on, and only white space stands before,
between and after them. -/
def Span.Follow (text : String) : Nat → List Span → Prop
  | index, [] => BlankBetween text index text.utf8ByteSize
  | index, span :: spans =>
    index ≤ span.start.index ∧ BlankBetween text index span.start.index ∧
      span.start.index ≤ span.stop.index ∧ Span.Follow text span.stop.index spans

/-- Stretches that follow each other are in order and do not meet. -/
theorem Span.Follow.pairwise {text : String} {index : Nat} {spans : List Span}
    (follow : Span.Follow text index spans) :
    (∀ span ∈ spans, index ≤ span.start.index) ∧
      spans.Pairwise fun earlier later => earlier.stop.index ≤ later.start.index := by
  induction spans generalizing index with
  | nil => exact ⟨fun _ member => (List.not_mem_nil member).elim, List.Pairwise.nil⟩
  | cons span spans ih =>
      obtain ⟨starts, _, ends, follow⟩ := follow
      obtain ⟨later, ordered⟩ := ih follow
      refine ⟨?_, List.pairwise_cons.mpr ⟨later, ordered⟩⟩
      intro other member
      rcases List.mem_cons.mp member with rfl | member
      · exact starts
      · have beyond := later other member
        omega

/-- What is between two words of a text is blank if it is white space. -/
theorem Text.blankBetween_gap {text : String} {before gap rest : List Char}
    (whole : text.toList = before ++ (gap ++ rest)) (blank : ∀ c ∈ gap, isWhiteSpace c) :
    BlankBetween text (String.ofList before).utf8ByteSize
      (String.ofList (before ++ gap)).utf8ByteSize := by
  refine ⟨String.ofList gap, slice?_append whole, ?_⟩
  rw [String.toList_ofList]
  exact blank

theorem Text.byteSize_le_append (before chars : List Char) :
    (String.ofList before).utf8ByteSize ≤ (String.ofList (before ++ chars)).utf8ByteSize := by
  rw [String.ofList_append, String.utf8ByteSize_append]
  exact Nat.le_add_right _ _

/-- The stretch that ends a source follows white space. -/
theorem Source.follow_eof (source : Source) {before tail : List Char}
    (whole : source.text.toList = before ++ tail) (blank : ∀ c ∈ tail, isWhiteSpace c) :
    Span.Follow source.text (String.ofList before).utf8ByteSize [source.eofToken.loc] := by
  have ending : (source.posAfter source.text.toList).index = source.text.utf8ByteSize := by
    rw [source.index_posAfter, String.ofList_toList]
  have upTo : source.text.toList = before ++ (tail ++ []) := by
    rw [whole, List.append_nil]
  have atEnd : source.text.toList = source.text.toList ++ ([] ++ []) := (List.append_nil _).symm
  have gap := blankBetween_gap upTo blank
  have none := blankBetween_gap atEnd fun _ absent => (List.not_mem_nil absent).elim
  have within := byteSize_le_append before tail
  rw [← whole, String.ofList_toList] at gap within
  rw [List.append_nil, String.ofList_toList] at none
  refine ⟨?_, ?_, Nat.le_refl _, ?_⟩
  · change _ ≤ (source.posAfter source.text.toList).index
    rw [ending]
    exact within
  · change BlankBetween _ _ (source.posAfter source.text.toList).index
    rw [ending]
    exact gap
  · change BlankBetween _ (source.posAfter source.text.toList).index _
    rw [ending]
    exact none

/-- The tokens of fitting pieces follow each other, up to the end of the source. -/
theorem Piece.follow_tokens (source : Source) {pieces : List Piece} {before tail : List Char}
    (whole : source.text.toList = before ++ (Piece.text pieces ++ tail))
    (fit : Piece.Fit pieces tail) (blank : ∀ c ∈ tail, isWhiteSpace c) :
    Span.Follow source.text (String.ofList before).utf8ByteSize
      ((Piece.tokens source before pieces).map (·.loc) ++ [source.eofToken.loc]) := by
  induction pieces generalizing before with
  | nil => exact source.follow_eof whole blank
  | cons piece pieces ih =>
      obtain ⟨blankGap, _, fit⟩ := fit
      have here : source.text.toList =
          before ++ (piece.gap ++ (piece.word ++ (Piece.text pieces ++ tail))) := by
        rw [whole]
        simp only [Piece.text_cons, List.append_assoc]
      have later : source.text.toList =
          (before ++ piece.gap ++ piece.word) ++ (Piece.text pieces ++ tail) := by
        rw [here]
        simp only [List.append_assoc]
      have follow := ih later fit
      rw [← source.index_posAfter (before ++ piece.gap ++ piece.word)] at follow
      have gap := blankBetween_gap here blankGap
      have start := byteSize_le_append before piece.gap
      have stop := byteSize_le_append (before ++ piece.gap) piece.word
      rw [← source.index_posAfter (before ++ piece.gap)] at gap start stop
      rw [← source.index_posAfter (before ++ piece.gap ++ piece.word)] at stop
      exact ⟨start, gap, stop, follow⟩

/-! ## Tokens -/

theorem Division.isExact_tokens (source : Source) (division : Division source.text.toList) :
    ∀ token ∈ division.tokens source, token.loc.IsExact source := by
  intro token member
  rcases List.mem_append.mp member with early | last
  · exact Piece.isExact_tokens source division.whole token early
  · rw [List.mem_singleton.mp last]
    exact source.isExact_eofToken

theorem Division.follow_tokens (source : Source) (division : Division source.text.toList) :
    Span.Follow source.text 0 ((division.tokens source).map (·.loc)) := by
  have whole : source.text.toList = [] ++ (Piece.text division.pieces ++ division.tail) :=
    division.whole
  rw [Division.tokens, List.map_append]
  exact Piece.follow_tokens source whole division.fit division.blank

/-- **The lexer gives exact places.** Every token starts and stops at exact places, in order and
apart from each other, with white space only before, between and after them. If there is a fault
instead, it starts and stops at exact places. -/
theorem Source.tokens_exact (text path : String) :
    let source := Source.ofText text path
    (∀ tokens, source.tokens = .ok tokens →
        (∀ token ∈ tokens, token.loc.IsExact source) ∧
          (tokens.Pairwise fun earlier later => earlier.loc.stop.index ≤ later.loc.start.index) ∧
          Span.Follow source.text 0 (tokens.map (·.loc))) ∧
      ∀ fault, source.tokens = .error fault → fault.loc.IsExact source := by
  intro source
  refine ⟨?_, ?_⟩
  · intro tokens lexed
    obtain ⟨division, rfl⟩ := Source.exists_division lexed
    have follow := division.follow_tokens source
    exact ⟨division.isExact_tokens source, List.pairwise_map.mp follow.pairwise.2, follow⟩
  · intro fault failed
    rcases Division.nonempty_or_breach source.text.toList with ⟨⟨division⟩⟩ | ⟨cause, ⟨breach⟩⟩
    · cases failed.symm.trans (division.tokens_eq source)
    · cases failed.symm.trans (breach.tokens_eq source)
      have whole : source.text.toList =
          (Piece.text breach.pieces ++ breach.gap) ++ (breach.word ++ breach.rest) := by
        rw [List.append_assoc]
        exact breach.whole
      exact source.isExact_spanOf whole

/-- A line break of two characters counts once, and a letter of two bytes is one column. -/
theorem Source.tokens_exact_sample :
    let source := Source.ofText "fn\r\nä +" "p"
    ∃ tokens, source.tokens = .ok tokens ∧
      tokens.map (fun token => (token.loc.start.line, token.loc.start.column,
        token.loc.start.index)) = [(0, 0, 0), (1, 0, 3), (1, 2, 6), (1, 3, 7)] ∧
      (∀ token ∈ tokens, token.loc.IsExact source) ∧
      Span.Follow source.text 0 (tokens.map (·.loc)) := by
  intro source
  have starts : (source.tokens.toOption.map fun tokens => tokens.map fun token =>
      (token.loc.start.line, token.loc.start.column, token.loc.start.index)) =
        some [(0, 0, 0), (1, 0, 3), (1, 2, 6), (1, 3, 7)] := by
    decide +kernel
  cases lexed : source.tokens with
  | error fault =>
      rw [lexed] at starts
      cases starts
  | ok tokens =>
      rw [lexed] at starts
      obtain ⟨places, _, follow⟩ := (Source.tokens_exact "fn\r\nä +" "p").1 tokens lexed
      exact ⟨tokens, rfl, Option.some.inj starts, places, follow⟩

end NcLang
