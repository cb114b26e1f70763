import NcLang.Proofs.Words

/-! # Texts divided into words

A division of a text is a way to read it as words with white space around them, where each word is
as long as it can be and is a lexeme. A breach is a division that gets stuck: after some words, the
next one is a fault. Every text has a division or a breach, and the lexer finds whichever there is
(`Source.tokens_iff_division`).
-/

namespace NcLang

open Text

/-- A word that is a lexeme, with the white space before it. -/
structure Piece where
  gap : List Char
  word : List Char
  lexeme : Lexeme

namespace Piece

/-- The characters of some pieces, one after the other. -/
def text (pieces : List Piece) : List Char :=
  pieces.flatMap fun piece => piece.gap ++ piece.word

/-- The characters of a piece stand in front of those of the further ones. -/
theorem text_cons (piece : Piece) (pieces : List Piece) :
    text (piece :: pieces) = piece.gap ++ (piece.word ++ text pieces) :=
  List.append_assoc piece.gap piece.word (text pieces)

/-- Whether some pieces are right where the text goes on with `rest`. -/
def Fit : List Piece → List Char → Prop
  | [], _ => True
  | piece :: pieces, rest =>
    (∀ c ∈ piece.gap, isWhiteSpace c) ∧
      piece.lexeme.SpelledBy piece.word (text pieces ++ rest) ∧ Fit pieces rest

end Piece

/-- A text as words with white space around them. -/
structure Division (text : List Char) where
  pieces : List Piece
  tail : List Char
  whole : text = Piece.text pieces ++ tail
  fit : Piece.Fit pieces tail
  blank : ∀ c ∈ tail, isWhiteSpace c

/-- A text as words with white space around them up to a word that is a fault. -/
structure Breach (text : List Char) (fault : LexicalFault) where
  pieces : List Piece
  gap : List Char
  word : List Char
  rest : List Char
  whole : text = Piece.text pieces ++ (gap ++ (word ++ rest))
  fit : Piece.Fit pieces (gap ++ (word ++ rest))
  blank : ∀ c ∈ gap, isWhiteSpace c
  shown : fault.ShownBy word rest

/-! ## Locations -/

/-- The place after some characters of a source. -/
def Source.posAfter (source : Source) (before : List Char) : Pos :=
  (Pos.origin source).after before

/-- The stretch of a word that stands after some characters of a source. -/
def Source.spanOf (source : Source) (before word : List Char) : Span where
  start := source.posAfter before
  stop := source.posAfter (before ++ word)

/-- The end of input, which is empty and stands after the whole text. -/
def Source.eofToken (source : Source) : Token Span where
  toLexeme := Lexeme.eof
  loc := (source.posAfter source.text.toList).emptySpan

/-- The tokens of some pieces that stand after some characters of a source. -/
def Piece.tokens (source : Source) : List Char → List Piece → List (Token Span)
  | _, [] => []
  | before, piece :: pieces =>
    { toLexeme := piece.lexeme, loc := source.spanOf (before ++ piece.gap) piece.word } ::
      Piece.tokens source (before ++ piece.gap ++ piece.word) pieces

/-- A place is told by what is before it, in however many steps it was reached. -/
theorem Source.after_posAfter (source : Source) (before chars : List Char) :
    (source.posAfter before).after chars = source.posAfter (before ++ chars) := by
  rw [Source.posAfter, Source.posAfter, Pos.after, Pos.after, Pos.after, List.foldl_append]

theorem Text.byteSize_cons (c : Char) (chars : List Char) :
    (String.ofList (c :: chars)).utf8ByteSize =
      c.utf8Size + (String.ofList chars).utf8ByteSize := by
  rw [String.ofList_cons, String.utf8ByteSize_append, String.utf8ByteSize_singleton]

/-- The index counts bytes of the characters passed. -/
theorem Pos.index_after (pos : Pos) (chars : List Char) :
    (pos.after chars).index = pos.index + (String.ofList chars).utf8ByteSize := by
  induction chars generalizing pos with
  | nil => rfl
  | cons c chars ih =>
      rw [Pos.after, List.foldl_cons, ← Pos.after, ih, Text.byteSize_cons, Pos.advance,
        Nat.add_assoc]

/-- A place stays in its source. -/
theorem Pos.source_after (pos : Pos) (chars : List Char) :
    (pos.after chars).source = pos.source := by
  induction chars generalizing pos with
  | nil => rfl
  | cons c chars ih => exact ih (pos.advance c)

/-- The index of a place is the number of bytes before it. -/
theorem Source.index_posAfter (source : Source) (before : List Char) :
    (source.posAfter before).index = (String.ofList before).utf8ByteSize := by
  rw [Source.posAfter, Pos.index_after]
  exact Nat.zero_add _

/-- Cutting a text after some of its characters gives them back. -/
theorem Text.splitBytes?_append (before rest : List Char) :
    splitBytes? (String.ofList before).utf8ByteSize (before ++ rest) = some (before, rest) := by
  induction before with
  | nil => cases rest <;> rfl
  | cons c before ih =>
      obtain ⟨less, width⟩ := Nat.exists_eq_succ_of_ne_zero (Nat.ne_of_gt c.utf8Size_pos)
      have size : (String.ofList (c :: before)).utf8ByteSize =
          (less + (String.ofList before).utf8ByteSize) + 1 := by
        rw [Text.byteSize_cons, width]
        omega
      have inside : c.utf8Size ≤ less + (String.ofList before).utf8ByteSize + 1 := by
        omega
      have left : less + (String.ofList before).utf8ByteSize + 1 - c.utf8Size =
          (String.ofList before).utf8ByteSize := by
        omega
      rw [size, List.cons_append, splitBytes?, if_pos inside, left, ih]
      rfl

/-- Characters in the midst of a text are cut out of it. -/
theorem Text.slice?_append {text : String} {before middle rest : List Char}
    (whole : text.toList = before ++ (middle ++ rest)) :
    slice? text (String.ofList before).utf8ByteSize
      (String.ofList (before ++ middle)).utf8ByteSize = some (String.ofList middle) := by
  have size : (String.ofList (before ++ middle)).utf8ByteSize =
      (String.ofList before).utf8ByteSize + (String.ofList middle).utf8ByteSize := by
    rw [String.ofList_append, String.utf8ByteSize_append]
  have ordered : (guard ((String.ofList before).utf8ByteSize ≤
      (String.ofList before).utf8ByteSize + (String.ofList middle).utf8ByteSize) : Option Unit) =
        some () :=
    if_pos (Nat.le_add_right _ _)
  rw [size, slice?, whole, Text.splitBytes?_append, Nat.add_sub_cancel_left, ordered]
  simp only [Option.pure_def, Option.bind_eq_bind, Option.bind_some, Text.splitBytes?_append]

/-- The stretch of a word is cut out of the source. -/
theorem Source.substr?_spanOf (source : Source) {before word rest : List Char}
    (whole : source.text.toList = before ++ (word ++ rest)) :
    (source.spanOf before word).substr? = some (String.ofList word) := by
  have started : (source.spanOf before word).start.source = source := Pos.source_after _ before
  rw [Span.substr?, started, Source.spanOf, Source.index_posAfter, Source.index_posAfter]
  exact Text.slice?_append whole

/-! ## Every text has a division or a breach -/

/-- The text that a word and the white space before it go on with may be divided further. -/
def Division.cons {gap word rest : List Char} {lexeme : Lexeme}
    (blank : ∀ c ∈ gap, isWhiteSpace c) (spelled : lexeme.SpelledBy word rest)
    (division : Division rest) : Division (gap ++ (word ++ rest)) where
  pieces := { gap, word, lexeme } :: division.pieces
  tail := division.tail
  whole := by
    rw [Piece.text_cons, List.append_assoc, List.append_assoc, ← division.whole]
  fit := ⟨blank, division.whole ▸ spelled, division.fit⟩
  blank := division.blank

/-- The text that a word and the white space before it go on with may get stuck further on. -/
def Breach.cons {gap word rest : List Char} {lexeme : Lexeme} {fault : LexicalFault}
    (blank : ∀ c ∈ gap, isWhiteSpace c) (spelled : lexeme.SpelledBy word rest)
    (breach : Breach rest fault) : Breach (gap ++ (word ++ rest)) fault where
  pieces := { gap, word, lexeme } :: breach.pieces
  gap := breach.gap
  word := breach.word
  rest := breach.rest
  whole := by
    rw [Piece.text_cons, List.append_assoc, List.append_assoc, ← breach.whole]
  fit := ⟨blank, breach.whole ▸ spelled, breach.fit⟩
  blank := breach.blank
  shown := breach.shown

/-- Words follow each other up to the end of the text or to a fault. -/
theorem Division.nonempty_or_breach (text : List Char) :
    Nonempty (Division text) ∨ ∃ fault, Nonempty (Breach text fault) := by
  -- The induction is on the number of characters, since each step takes a word off the text.
  induction length : text.length using Nat.strongRecOn generalizing text with
  | ind size ih =>
      have blank := (LongestRun.of_chars isWhiteSpace text).all
      have stops := (LongestRun.of_chars isWhiteSpace text).stops
      have whole := List.takeWhile_append_dropWhile (p := isWhiteSpace) (l := text)
      cases start : text.dropWhile isWhiteSpace with
      | nil =>
          rw [start, List.append_nil] at whole
          exact .inl ⟨[], text, rfl, trivial, whole ▸ blank⟩
      | cons first chars =>
          rw [start] at stops whole
          have word : first :: chars = (first :: chars.takeWhile (Token.continues first)) ++
              chars.dropWhile (Token.continues first) := by
            rw [List.cons_append, List.takeWhile_append_dropWhile]
          have fewer : (chars.dropWhile (Token.continues first)).length < size := by
            have shorter := Token.length_dropWhile_le (Token.continues first) chars
            rw [← length, ← whole, List.length_append, List.length_cons]
            omega
          rw [← whole, word]
          rcases Lexeme.word_cases first chars (stops first rfl) with
            ⟨lexeme, spelled⟩ | ⟨fault, shown⟩
          · rcases ih _ fewer (chars.dropWhile (Token.continues first)) rfl with
              ⟨⟨division⟩⟩ | ⟨fault, ⟨breach⟩⟩
            · exact .inl ⟨division.cons blank spelled⟩
            · exact .inr ⟨fault, ⟨breach.cons blank spelled⟩⟩
          · exact .inr ⟨fault, ⟨[], _, _, _, rfl, trivial, blank, shown⟩⟩

/-! ## The lexer follows divisions and breaches -/

/-- The lexer passes white space without a token. -/
theorem Token.scan_gap {gap : List Char} (blank : ∀ c ∈ gap, isWhiteSpace c) (pos : Pos)
    (rest : List Char) : Token.scan pos (gap ++ rest) = Token.scan (pos.after gap) rest := by
  induction gap generalizing pos with
  | nil => rfl
  | cons c gap ih =>
      have space : isWhiteSpace c = true := blank c List.mem_cons_self
      rw [List.cons_append, Token.scan, if_pos space,
        ih (fun other member => blank other (List.mem_cons_of_mem c member))]
      rfl

/-- The lexer makes one token of a word that is a lexeme, and goes on after it. -/
theorem Lexeme.SpelledBy.scan_eq {word rest : List Char} {lexeme : Lexeme}
    (spelled : lexeme.SpelledBy word rest) (pos : Pos) :
    Token.scan pos (word ++ rest) =
      (Token.scan (pos.after word) rest).map fun later =>
        { toLexeme := lexeme, loc := { start := pos, stop := pos.after word } } :: later := by
  obtain ⟨first, more, rfl, found⟩ := spelled.found
  rw [List.cons_append, Token.scan, found.noSpace, found.takeWhile_eq, found.dropWhile_eq]
  simp only [Bool.false_eq_true, ↓reduceIte, found.ofWord_eq]

/-- The lexer stops at a word that is a fault, whatever comes after it. -/
theorem LexicalFault.ShownBy.scan_eq {word rest : List Char} {fault : LexicalFault}
    (shown : fault.ShownBy word rest) (pos : Pos) :
    Token.scan pos (word ++ rest) =
      .error { loc := { start := pos, stop := pos.after word }, cause := fault } := by
  obtain ⟨first, more, rfl, found⟩ := shown.found
  rw [List.cons_append, Token.scan, found.noSpace, found.takeWhile_eq]
  simp only [Bool.false_eq_true, ↓reduceIte, found.ofWord_eq]

/-- The lexer makes a token of each piece and goes on after them. -/
theorem Piece.scan_text (source : Source) {pieces : List Piece} {rest : List Char}
    (fit : Piece.Fit pieces rest) (before : List Char) :
    Token.scan (source.posAfter before) (Piece.text pieces ++ rest) =
      (Token.scan (source.posAfter (before ++ Piece.text pieces)) rest).map fun later =>
        Piece.tokens source before pieces ++ later := by
  induction pieces generalizing before with
  | nil =>
      rw [Piece.text, List.flatMap_nil, List.append_nil, List.nil_append]
      cases Token.scan (source.posAfter before) rest <;> rfl
  | cons piece pieces ih =>
      obtain ⟨blank, spelled, fit⟩ := fit
      have chars : Piece.text (piece :: pieces) ++ rest =
          piece.gap ++ (piece.word ++ (Piece.text pieces ++ rest)) := by
        simp only [Piece.text_cons, List.append_assoc]
      have places : before ++ Piece.text (piece :: pieces) =
          before ++ piece.gap ++ piece.word ++ Piece.text pieces := by
        simp only [Piece.text_cons, List.append_assoc]
      rw [chars, places, Token.scan_gap blank, Source.after_posAfter, spelled.scan_eq,
        Source.after_posAfter, ih fit]
      cases Token.scan
        (source.posAfter (before ++ piece.gap ++ piece.word ++ Piece.text pieces)) rest
      · rfl
      · rfl

/-- The tokens of the words, followed by the end of input. -/
def Division.tokens (source : Source) (division : Division source.text.toList) :
    List (Token Span) :=
  Piece.tokens source [] division.pieces ++ [source.eofToken]

/-- A text that can be divided has the tokens of its division. -/
theorem Division.tokens_eq (source : Source) (division : Division source.text.toList) :
    source.tokens = .ok (division.tokens source) := by
  have scanned := Piece.scan_text source division.fit []
  have ended : Token.scan (source.posAfter (Piece.text division.pieces)) division.tail =
      .ok [source.eofToken] := by
    have blank := Token.scan_gap division.blank (source.posAfter (Piece.text division.pieces)) []
    rw [List.append_nil, Source.after_posAfter, ← division.whole, Token.scan] at blank
    exact blank
  rw [List.nil_append, ended, ← division.whole] at scanned
  exact scanned

/-- A text that gets stuck has the fault of the word where it does, and no tokens. -/
theorem Breach.tokens_eq (source : Source) {fault : LexicalFault}
    (breach : Breach source.text.toList fault) :
    source.tokens = .error
      { loc := source.spanOf (Piece.text breach.pieces ++ breach.gap) breach.word,
        cause := fault } := by
  have scanned := Piece.scan_text source breach.fit []
  rw [List.nil_append, Token.scan_gap breach.blank, Source.after_posAfter, breach.shown.scan_eq,
    Source.after_posAfter, ← breach.whole] at scanned
  exact scanned

/-! ## The characters of the words -/

/-- Identifiers have no white space in them. -/
theorem Text.isWhiteSpace_of_isWordChar {c : Char} (inWord : isWordChar c) :
    isWhiteSpace c = false := by
  rw [isWordChar, isAlphanumeric, Bool.or_eq_true, Bool.or_eq_true] at inWord
  rcases inWord with (letter | number) | underscore
  · exact isWhiteSpace_of_isAlphabetic letter
  · exact CodeRanges.covers_eq_false (by decide +kernel) number
  · rw [of_decide_eq_true underscore]
    decide

/-- No word has white space in it. -/
theorem Lexeme.SpelledBy.noSpace {word rest : List Char} {lexeme : Lexeme}
    (spelled : lexeme.SpelledBy word rest) : ∀ c ∈ word, isWhiteSpace c = false := by
  intro c member
  cases spelled with
  | int nonempty longest fits => exact isWhiteSpace_of_isDigit (longest.all c member)
  | keyword word letter longest reserved =>
      rcases List.mem_cons.mp member with rfl | member
      · exact isWhiteSpace_of_isAlphabetic letter
      · exact isWhiteSpace_of_isWordChar (longest.all c member)
  | name letter longest free =>
      rcases List.mem_cons.mp member with rfl | member
      · exact isWhiteSpace_of_isAlphabetic letter
      · exact isWhiteSpace_of_isWordChar (longest.all c member)
  | symbol kind symbol =>
      rw [List.mem_singleton.mp member]
      exact (classes_of_symbol symbol).2.2

/-- White space is all that is left out between words. -/
theorem Text.filter_blank {chars : List Char} (blank : ∀ c ∈ chars, isWhiteSpace c) :
    chars.filter (fun c => !isWhiteSpace c) = [] := by
  apply List.filter_eq_nil_iff.mpr
  intro c member
  rw [blank c member]
  exact Bool.false_ne_true

/-- The words of some pieces are their characters without the white space. -/
theorem Piece.flatMap_word {pieces : List Piece} {rest : List Char}
    (fit : Piece.Fit pieces rest) :
    pieces.flatMap Piece.word = (Piece.text pieces).filter fun c => !isWhiteSpace c := by
  induction pieces with
  | nil => rfl
  | cons piece pieces ih =>
      obtain ⟨blank, spelled, fit⟩ := fit
      have word : piece.word.filter (fun c => !isWhiteSpace c) = piece.word := by
        apply List.filter_eq_self.mpr
        intro c member
        rw [spelled.noSpace c member]
        rfl
      rw [List.flatMap_cons, ih fit, Piece.text_cons, List.filter_append, List.filter_append,
        Text.filter_blank blank, word, List.nil_append]

/-- The tokens of some pieces cover the words of these pieces. -/
theorem Piece.map_substr? (source : Source) {pieces : List Piece} {before rest : List Char}
    (whole : source.text.toList = before ++ (Piece.text pieces ++ rest)) :
    (Piece.tokens source before pieces).map (·.loc.substr?) =
      pieces.map fun piece => some (String.ofList piece.word) := by
  induction pieces generalizing before with
  | nil => rfl
  | cons piece pieces ih =>
      have here : source.text.toList =
          (before ++ piece.gap) ++ (piece.word ++ (Piece.text pieces ++ rest)) := by
        rw [whole]
        simp only [Piece.text_cons, List.append_assoc]
      have later : source.text.toList =
          (before ++ piece.gap ++ piece.word) ++ (Piece.text pieces ++ rest) := by
        rw [here]
        simp only [List.append_assoc]
      rw [Piece.tokens, List.map_cons, List.map_cons, ih later, Source.substr?_spanOf source here]

/-- Each word of pieces that are right is a lexeme, wherever it stands among them. -/
theorem Piece.exists_spelledBy {pieces : List Piece} {rest : List Char}
    (fit : Piece.Fit pieces rest) :
    ∀ piece ∈ pieces, ∃ later, piece.lexeme.SpelledBy piece.word later := by
  induction pieces with
  | nil => exact fun _ member => (List.not_mem_nil member).elim
  | cons piece pieces ih =>
      obtain ⟨_, spelled, fit⟩ := fit
      intro other member
      rcases List.mem_cons.mp member with rfl | member
      · exact ⟨_, spelled⟩
      · exact ih fit other member

theorem Piece.word_ne_nil {pieces : List Piece} {rest : List Char}
    (fit : Piece.Fit pieces rest) : ∀ piece ∈ pieces, piece.word ≠ [] := by
  intro piece member
  obtain ⟨_, spelled⟩ := Piece.exists_spelledBy fit piece member
  obtain ⟨first, more, word, _⟩ := spelled.found
  rw [word]
  exact List.cons_ne_nil first more

/-- The tokens of a division cover its words, and the last one covers nothing. -/
theorem Division.map_substr? (source : Source) (division : Division source.text.toList) :
    (division.tokens source).map (·.loc.substr?) =
      (division.pieces.map fun piece => some (String.ofList piece.word)) ++ [some ""] := by
  have ending : source.eofToken.loc.substr? = some "" := by
    have whole : source.text.toList = source.text.toList ++ ([] ++ []) :=
      (List.append_nil _).symm
    have empty := Source.substr?_spanOf source whole
    rw [Source.spanOf, List.append_nil] at empty
    exact empty
  rw [Division.tokens, List.map_append, Piece.map_substr? source division.whole, List.map_cons,
    ending]
  rfl

/-- The words of a division are all that is no white space. -/
theorem Division.flatMap_word {text : List Char} (division : Division text) :
    division.pieces.flatMap Piece.word = text.filter fun c => !isWhiteSpace c := by
  have chars := congrArg (List.filter fun c => !isWhiteSpace c) division.whole
  rw [List.filter_append, Text.filter_blank division.blank, List.append_nil] at chars
  rw [Piece.flatMap_word division.fit, chars]

/-! ## The lexemes of the words -/

/-- What a word spells has a value if and only if its kind is due one. -/
theorem Lexeme.SpelledBy.isConsistent {word rest : List Char} {lexeme : Lexeme}
    (spelled : lexeme.SpelledBy word rest) : lexeme.isConsistent := by
  cases spelled with
  | int => rfl
  | keyword => rfl
  | name => rfl
  | symbol kind symbol => cases kind <;> cases symbol <;> rfl

/-- No word spells the end of input. -/
theorem Lexeme.SpelledBy.kind_ne_eof {word rest : List Char} {lexeme : Lexeme}
    (spelled : lexeme.SpelledBy word rest) : lexeme.kind ≠ .eof := by
  cases spelled with
  | int => exact TokenKind.noConfusion
  | keyword => exact TokenKind.noConfusion
  | name => exact TokenKind.noConfusion
  | symbol kind symbol => cases kind <;> cases symbol <;> exact TokenKind.noConfusion

/-- The tokens of some pieces have the lexemes of these pieces. -/
theorem Piece.map_tokens (source : Source) (before : List Char) (pieces : List Piece) :
    (Piece.tokens source before pieces).map (·.toLexeme) = pieces.map Piece.lexeme := by
  induction pieces generalizing before with
  | nil => rfl
  | cons piece pieces ih => rw [Piece.tokens, List.map_cons, List.map_cons, ih]

/-- The lexer gives the lexemes of the words, and the end of input after them. -/
theorem Division.map_tokens (source : Source) (division : Division source.text.toList) :
    (division.tokens source).map (·.toLexeme) =
      division.pieces.map Piece.lexeme ++ [Lexeme.eof] := by
  rw [Division.tokens, List.map_append, Piece.map_tokens]
  rfl

/-- The lexer gives every token the value that its kind is due, and one end of input. -/
theorem Division.consistent_tokens (source : Source) (division : Division source.text.toList) :
    Token.Consistent (division.tokens source) := by
  have spelled (token : Token Span) (member : token ∈ Piece.tokens source [] division.pieces) :
      ∃ word rest, token.toLexeme.SpelledBy word rest := by
    have lexeme := List.mem_map_of_mem (f := (·.toLexeme)) member
    rw [Piece.map_tokens] at lexeme
    obtain ⟨piece, isPiece, same⟩ := List.mem_map.mp lexeme
    obtain ⟨rest, spelled⟩ := Piece.exists_spelledBy division.fit piece isPiece
    exact ⟨piece.word, rest, same ▸ spelled⟩
  rw [Division.tokens]
  refine ⟨?_, ?_⟩
  · intro token member
    rcases List.mem_append.mp member with early | last
    · obtain ⟨_, _, spelled⟩ := spelled token early
      exact spelled.isConsistent
    · rw [List.mem_singleton.mp last]
      rfl
  · intro token member
    rw [List.dropLast_concat] at member
    obtain ⟨_, _, spelled⟩ := spelled token member
    exact spelled.kind_ne_eof

/-- If the lexer gives tokens, the text can be divided, and they are those of a division. -/
theorem Source.exists_division {source : Source} {tokens : List (Token Span)}
    (lexed : source.tokens = .ok tokens) :
    ∃ division : Division source.text.toList, tokens = division.tokens source := by
  rcases Division.nonempty_or_breach source.text.toList with ⟨⟨division⟩⟩ | ⟨fault, ⟨breach⟩⟩
  · exact ⟨division, Except.ok.inj (lexed.symm.trans (division.tokens_eq source))⟩
  · cases lexed.symm.trans (breach.tokens_eq source)

/-- **The lexer divides a text into its words.** A text has tokens exactly if it has a division, and
they are one for each word and an empty one at the end. The token of a word covers the word, which
is never empty, and together the words are all that is no white space. The bounds of a stretch are
the bytes before it and up to its end. A text has a fault exactly if it has a breach, and the fault
is at the word where the division gets stuck. -/
theorem Source.tokens_iff_division (text path : String) :
    let source := Source.ofText text path
    (∀ tokens, source.tokens = .ok tokens ↔
        ∃ division : Division source.text.toList, tokens = division.tokens source) ∧
      (∀ division : Division source.text.toList,
        (division.tokens source).map (·.loc.substr?) =
            (division.pieces.map fun piece => some (String.ofList piece.word)) ++ [some ""] ∧
          (∀ piece ∈ division.pieces, piece.word ≠ []) ∧
          division.pieces.flatMap Piece.word =
            source.text.toList.filter fun c => !isWhiteSpace c) ∧
      (∀ before word rest, source.text.toList = before ++ (word ++ rest) →
        (source.spanOf before word).start.index = (String.ofList before).utf8ByteSize ∧
          (source.spanOf before word).stop.index = (String.ofList (before ++ word)).utf8ByteSize ∧
          (source.spanOf before word).substr? = some (String.ofList word)) ∧
      ∀ fault, source.tokens = .error fault ↔
        ∃ breach : Breach source.text.toList fault.cause,
          fault.loc = source.spanOf (Piece.text breach.pieces ++ breach.gap) breach.word := by
  intro source
  refine ⟨fun tokens => ⟨Source.exists_division, ?_⟩, ?_, ?_, fun fault => ⟨?_, ?_⟩⟩
  · rintro ⟨division, rfl⟩
    exact division.tokens_eq source
  · intro division
    exact ⟨division.map_substr? source, Piece.word_ne_nil division.fit, division.flatMap_word⟩
  · intro before word rest whole
    exact ⟨source.index_posAfter before, source.index_posAfter (before ++ word),
      source.substr?_spanOf whole⟩
  · intro failed
    rcases Division.nonempty_or_breach source.text.toList with ⟨⟨division⟩⟩ | ⟨cause, ⟨breach⟩⟩
    · cases failed.symm.trans (division.tokens_eq source)
    · cases failed.symm.trans (breach.tokens_eq source)
      exact ⟨breach, rfl⟩
  · rintro ⟨breach, located⟩
    rw [breach.tokens_eq source, ← located]

end NcLang
