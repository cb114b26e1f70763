import NcLang.Proofs.Concatenation
import NcLang.Proofs.Spelling
import NcLang.Proofs.TokenRanges

/-! # Spans are exact

The span of a node goes from the start of its first token to the stop of its last one, and the text
between these is read as the tokens of the node again, whatever stands around it
(`Scope.parse_spans_exact`). The nodes of a parsed program are those of the same tokens with numbers
for locations, where each number is replaced by the place of the token that it counts.
-/

namespace NcLang

open Text

/-! ## Spans of ranges -/

/-- The stretch from the start of the first token of a range to the stop of its last one. -/
def TokenRange.span (tokens : List (Token Span)) (range : TokenRange) : Span where
  start := (tokens.getD range.start (Token.endAfter tokens)).loc.start
  stop := (tokens.getD (range.stop - 1) (Token.endAfter tokens)).loc.stop

/-- The tokens of a range. -/
def TokenRange.cut {α : Type} (range : TokenRange) (tokens : List (Token α)) : List (Token α) :=
  (tokens.drop range.start).take (range.stop - range.start)

theorem TokenRange.keepsStretch_span (tokens : List (Token Span)) :
    KeepsStretch (TokenRange.span tokens) :=
  fun _ _ => rfl

/-- Numbered tokens are the tokens again where the numbers are replaced by places. -/
theorem Token.map_span_numbered (before front rest : List (Token Span)) :
    (Token.numbered before.length front).map
      (Token.map (TokenRange.span (before ++ (front ++ rest)))) = front := by
  induction front generalizing before with
  | nil => rfl
  | cons token front ih =>
      have here : Token.map (TokenRange.span (before ++ (token :: front ++ rest)))
          { toLexeme := token.toLexeme, loc := .single before.length } = token := by
        simp [Token.map, TokenRange.span, TokenRange.single]
      have later := ih (before ++ [token])
      rw [List.length_append, List.length_singleton, List.append_assoc, List.singleton_append]
        at later
      rw [Token.numbered, List.map_cons, here]
      exact congrArg (token :: ·) later

/-- A draft is the one that numbered tokens lead to, with its nodes nested, where the numbers are
replaced by places. -/
theorem Draft.exists_marked {front : List (Token Span)} {reached : Draft Span}
    (path : ({} : Draft Span).after? front = some reached) (rest : List (Token Span)) :
    ∃ marked : Draft TokenRange,
      ({} : Draft TokenRange).after? (Token.numbered 0 front) = some marked ∧
        marked.map (TokenRange.span (front ++ rest)) = reached ∧ marked.Nested front.length := by
  have moved := Draft.after?_map (TokenRange.keepsStretch_span (front ++ rest)) {}
    (Token.numbered 0 front)
  have same := Token.map_span_numbered [] front rest
  rw [List.length_nil, List.nil_append] at same
  rw [same] at moved
  obtain ⟨marked, read, mapped⟩ := Option.map_eq_some_iff.mp (moved.symm.trans path)
  have nested := Draft.after?_nested Draft.nested_empty read
  rw [Nat.zero_add] at nested
  exact ⟨marked, read, mapped, nested⟩

/-! ## Reading the text of a range -/

theorem Piece.text_append (first second : List Piece) :
    Piece.text (first ++ second) = Piece.text first ++ Piece.text second :=
  List.flatMap_append

theorem Piece.tokens_append (source : Source) (before : List Char) (first second : List Piece) :
    Piece.tokens source before (first ++ second) =
      Piece.tokens source before first ++
        Piece.tokens source (before ++ Piece.text first) second := by
  induction first generalizing before with
  | nil => rw [Piece.text, List.flatMap_nil, List.append_nil, List.nil_append, Piece.tokens,
      List.nil_append]
  | cons piece first ih =>
      rw [List.cons_append, Piece.tokens, Piece.tokens, ih, List.cons_append, Piece.text_cons]
      simp only [List.append_assoc]

theorem Piece.length_tokens (source : Source) (before : List Char) (pieces : List Piece) :
    (Piece.tokens source before pieces).length = pieces.length := by
  rw [← List.length_map, Piece.map_tokens, List.length_map]

theorem Piece.Fit.of_append {first second : List Piece} {rest : List Char}
    (fit : Piece.Fit (first ++ second) rest) :
    Piece.Fit first (Piece.text second ++ rest) ∧ Piece.Fit second rest := by
  induction first with
  | nil => exact ⟨trivial, fit⟩
  | cons piece first ih =>
      rw [List.cons_append] at fit
      obtain ⟨blank, spelled, fit⟩ := fit
      obtain ⟨early, late⟩ := ih fit
      rw [Piece.text_append, List.append_assoc] at spelled
      exact ⟨⟨blank, spelled, early⟩, late⟩

/-- The last token of some pieces stops where they do. -/
theorem Piece.stop_of_getLast? (source : Source) (before : List Char) {pieces : List Piece}
    {last : Token Span} (ends : (Piece.tokens source before pieces).getLast? = some last) :
    last.loc.stop = source.posAfter (before ++ Piece.text pieces) := by
  rcases List.eq_nil_or_concat pieces with rfl | ⟨front, piece, rfl⟩
  · cases ends
  · rw [List.concat_eq_append, Piece.tokens_append, Piece.tokens, Piece.tokens,
      List.getLast?_concat] at ends
    cases ends
    rw [List.concat_eq_append, Piece.text_append, Piece.text_cons]
    simp only [Source.spanOf, List.append_assoc, Piece.text, List.flatMap_nil, List.append_nil]

/-- The stretch from the first token of some pieces to the last one leaves out the white space
before them. -/
theorem Piece.through_tokens (source : Source) (before : List Char) (piece : Piece)
    (pieces : List Piece) {first last : Token Span}
    (starts : (Piece.tokens source before (piece :: pieces)).head? = some first)
    (ends : (Piece.tokens source before (piece :: pieces)).getLast? = some last) :
    (⟨first.loc.start, last.loc.stop⟩ : Span) =
      source.spanOf (before ++ piece.gap) (piece.word ++ Piece.text pieces) := by
  have start : first.loc.start = source.posAfter (before ++ piece.gap) := by
    cases starts
    rfl
  have stop := Piece.stop_of_getLast? source before ends
  rw [start, stop, Piece.text_cons, Source.spanOf, List.append_assoc before]

/-- Words that stand in a normalized text are read alone as they are read there. -/
theorem Source.tokens_of_pieces {piece : Piece} {pieces : List Piece} {rest : List Char}
    (fit : Piece.Fit (piece :: pieces) rest)
    (noReturn : '\r' ∉ piece.word ++ Piece.text pieces) (path : String) :
    ∃ tokens, (Source.ofText (String.ofList (piece.word ++ Piece.text pieces)) path).tokens =
        .ok tokens ∧
      tokens.map (·.toLexeme) = (piece :: pieces).map Piece.lexeme ++ [Lexeme.eof] := by
  let source := Source.ofText (String.ofList (piece.word ++ Piece.text pieces)) path
  have chars : source.text.toList = piece.word ++ Piece.text pieces := by
    change (normalizeBreaks _).toList = _
    rw [toList_normalizeBreaks, String.toList_ofList]
    exact normalize_of_noReturn noReturn
  have alone : Piece.Fit (piece :: pieces) [] :=
    fit.before_blank fun _ absent => (Option.not_mem_none _ absent).elim
  let division : Division source.text.toList :=
    { pieces := { piece with gap := [] } :: pieces
      tail := []
      whole := by
        rw [chars, List.append_nil]
        rfl
      fit := ⟨fun _ absent => (List.not_mem_nil absent).elim, alone.2⟩
      blank := fun _ absent => (List.not_mem_nil absent).elim }
  exact ⟨division.tokens source, division.tokens_eq source, division.map_tokens source⟩

/-- The pieces of a range, with those before and after. -/
theorem TokenRange.exists_split {β : Type} {range : TokenRange} {items : List β}
    (nonempty : range.start < range.stop) (within : range.stop ≤ items.length) :
    ∃ front item middle back, items = front ++ (item :: middle ++ back) ∧
      front.length = range.start ∧ middle.length + 1 = range.stop - range.start := by
  have more : range.start < items.length := Nat.lt_of_lt_of_le nonempty within
  refine ⟨items.take range.start, items[range.start],
    (items.drop (range.start + 1)).take (range.stop - range.start - 1), items.drop range.stop,
    ?_, ?_, ?_⟩
  · have later : items.drop (range.start + 1) =
        (items.drop (range.start + 1)).take (range.stop - range.start - 1) ++
          items.drop range.stop := by
      conv => lhs; rw [← List.take_append_drop (range.stop - range.start - 1)
        (items.drop (range.start + 1)), List.drop_drop]
      congr 2
      omega
    rw [List.cons_append, ← later, ← List.drop_eq_getElem_cons more, List.take_append_drop]
  · rw [List.length_take]
    omega
  · rw [List.length_take, List.length_drop]
    omega

/-- Where the tokens of a range stand in a list that is split around them. -/
theorem TokenRange.cut_append {range : TokenRange} {before inner : List (Token Span)}
    (nonempty : range.start < range.stop) (starts : before.length = range.start)
    (size : inner.length = range.stop - range.start) (rest : List (Token Span)) :
    let tokens := before ++ (inner ++ rest)
    tokens[range.start]? = inner.head? ∧ tokens[range.stop - 1]? = inner.getLast? ∧
      range.cut tokens = inner := by
  intro tokens
  have first : 0 < inner.length := by omega
  have last : inner.length - 1 < inner.length := by omega
  have offset : range.stop - 1 - before.length = inner.length - 1 := by omega
  refine ⟨?_, ?_, ?_⟩
  · rw [← starts, List.getElem?_append_right (Nat.le_refl _), Nat.sub_self,
      List.getElem?_append_left first, List.head?_eq_getElem?]
  · rw [List.getElem?_append_right (by omega), offset, List.getElem?_append_left last,
      List.getLast?_eq_getElem?]
  · rw [TokenRange.cut, List.drop_left' starts, List.take_left' size]

/-- The tokens of a range are found at its ends, and the text between these ends is read as the same
tokens. -/
structure TokenRange.Exact (range : TokenRange) (tokens : List (Token Span)) : Prop where
  ends : ∃ first last, tokens[range.start]? = some first ∧ tokens[range.stop - 1]? = some last ∧
    range.span tokens = ⟨first.loc.start, last.loc.stop⟩
  read : ∃ part, (range.span tokens).substr? = some part ∧
    ∀ path, ∃ inner, (Source.ofText part path).tokens = .ok inner ∧
      inner.map (·.toLexeme) = (range.cut tokens).map (·.toLexeme) ++ [Lexeme.eof]

theorem TokenRange.start_span {range : TokenRange} {tokens : List (Token Span)}
    {first : Token Span} (starts : tokens[range.start]? = some first) :
    (range.span tokens).start = first.loc.start := by
  rw [TokenRange.span, List.getD_eq_getElem?_getD, starts, Option.getD_some]

theorem TokenRange.stop_span {range : TokenRange} {tokens : List (Token Span)}
    {last : Token Span} (stops : tokens[range.stop - 1]? = some last) :
    (range.span tokens).stop = last.loc.stop := by
  rw [TokenRange.span, List.getD_eq_getElem?_getD, List.getD_eq_getElem?_getD, stops,
    Option.getD_some]

theorem TokenRange.span_eq {range : TokenRange} {tokens : List (Token Span)}
    {first last : Token Span} (starts : tokens[range.start]? = some first)
    (stops : tokens[range.stop - 1]? = some last) :
    range.span tokens = ⟨first.loc.start, last.loc.stop⟩ := by
  rw [← range.start_span starts, ← range.stop_span stops]

/-- The ranges of the tokens of a text are exact. -/
theorem Division.exact_range {text path : String}
    (division : Division (Source.ofText text path).text.toList) {range : TokenRange}
    (nonempty : range.start < range.stop) (within : range.stop ≤ division.pieces.length) :
    range.Exact (division.tokens (Source.ofText text path)) := by
  let source := Source.ofText text path
  obtain ⟨front, piece, middle, back, split, starts, size⟩ :=
    TokenRange.exists_split nonempty within
  let inner := Piece.tokens source (Piece.text front) (piece :: middle)
  let rest := Piece.tokens source (Piece.text front ++ Piece.text (piece :: middle)) back ++
    [source.eofToken]
  have tokens : division.tokens source = Piece.tokens source [] front ++ (inner ++ rest) := by
    rw [Division.tokens, split, Piece.tokens_append, Piece.tokens_append, List.nil_append,
      List.append_assoc, List.append_assoc]
  have chars : source.text.toList = (Piece.text front ++ piece.gap) ++
      ((piece.word ++ Piece.text middle) ++ (Piece.text back ++ division.tail)) := by
    refine division.whole.trans ?_
    rw [split, Piece.text_append, Piece.text_append, Piece.text_cons]
    simp only [List.append_assoc]
  obtain ⟨atStart, atStop, cut⟩ := TokenRange.cut_append nonempty
    ((Piece.length_tokens source [] front).trans starts)
    ((Piece.length_tokens source (Piece.text front) (piece :: middle)).trans size) rest
  rw [← tokens] at atStart atStop cut
  have filled : inner ≠ [] := List.cons_ne_nil _ _
  obtain ⟨first, isFirst⟩ : ∃ first, inner.head? = some first := ⟨_, rfl⟩
  obtain ⟨last, isLast⟩ : ∃ last, inner.getLast? = some last :=
    ⟨_, List.getLast?_eq_some_getLast filled⟩
  have span := TokenRange.span_eq (atStart.trans isFirst) (atStop.trans isLast)
  refine ⟨⟨first, last, atStart.trans isFirst, atStop.trans isLast, span⟩, ?_⟩
  -- The white space before the first word of the range is no part of the span.
  refine ⟨String.ofList (piece.word ++ Piece.text middle), ?_, ?_⟩
  · rw [span, Piece.through_tokens source (Piece.text front) piece middle isFirst isLast]
    exact source.substr?_spanOf chars
  · have fit := division.fit
    rw [split] at fit
    have noReturn : '\r' ∉ piece.word ++ Piece.text middle := by
      intro member
      have inText : '\r' ∈ source.text.toList := by
        rw [chars]
        exact List.mem_append_right _ (List.mem_append_left _ member)
      change _ ∈ (normalizeBreaks text).toList at inText
      rw [toList_normalizeBreaks] at inText
      exact noReturn_normalize _ inText
    intro other
    rw [cut, Piece.map_tokens]
    exact Source.tokens_of_pieces fit.of_append.2.of_append.1 noReturn other

/-! ## Programs -/

/-- The node is made of a range of tokens before the end of input, which is exact, and its children
of ranges within, apart from each other and in order. -/
structure Node.StandsOn (tokens : List (Token Span)) (node : Node TokenRange) : Prop where
  nonempty : node.loc.start < node.loc.stop
  beforeEof : node.loc.stop < tokens.length
  exact : node.loc.Exact tokens
  apart : (node.children.map Node.loc).Pairwise fun earlier later => earlier.stop ≤ later.start
  inside : ∀ child ∈ node.children,
    node.loc.start ≤ child.loc.start ∧ child.loc.stop ≤ node.loc.stop

/-- Nested trees lie within their roots. -/
theorem Node.handedDown_nested (bound : Nat) :
    Node.HandedDown fun node : Node TokenRange => node.WellNested ∧ node.loc.stop ≤ bound := by
  intro node ⟨nested, ends⟩ child member
  have inside := nested.nests.children.bounds child.loc (List.mem_map_of_mem member)
  exact ⟨nested.child member, Nat.le_trans inside.2 ends⟩

/-- A function is written from its keyword to the brace that closes it. -/
theorem Node.lexemes_function {α : Type} {node : Node α} (function : node.isFunction) :
    node.lexemes.head? = some (.ofKeyword .fn) ∧
      node.lexemes.getLast? = some (.ofKind .rightBrace) := by
  cases node with
  | funcDef name returnType body loc =>
      obtain ⟨kind, statements, inner⟩ := body
      rw [Node.isFunction, Scope.isBlock, Bool.and_eq_true, Bool.and_eq_true] at function
      obtain rfl : kind = .block := of_decide_eq_true function.2.1
      refine ⟨rfl, ?_⟩
      rw [Node.lexemes, Scope.lexemes]
      simp only [← List.cons_append, List.getLast?_concat]
  | _ => cases function

theorem Scope.lexemes_ends {α : Type} {root : Scope α} (program : root.isProgram)
    (nonempty : root.statements ≠ []) :
    root.lexemes.head? = some (.ofKeyword .fn) ∧
      root.lexemes.getLast? = some (.ofKind .rightBrace) := by
  have functions := program
  rw [Scope.isProgram, Bool.and_eq_true] at functions
  have function (node : Node α) (member : node ∈ root.statements) :=
    Node.lexemes_function (List.all_eq_true.mp functions.2 node member)
  rw [Scope.lexemes_program program]
  refine ⟨?_, ?_⟩
  · obtain ⟨first, rest, split⟩ := List.exists_cons_of_ne_nil nonempty
    rw [split, List.flatMap_cons, List.head?_append,
      (function first (split ▸ List.mem_cons_self)).1]
    rfl
  · obtain ⟨front, last, split⟩ := (List.eq_nil_or_concat root.statements).resolve_left nonempty
    rw [List.concat_eq_append] at split
    rw [split, List.flatMap_append, List.flatMap_singleton, List.getLast?_append,
      (function last (split ▸ List.mem_append_right front List.mem_cons_self)).2]
    rfl

/-- A program that is parsed from a text ends with its last function. -/
theorem Division.parsed_eq (source : Source) (division : Division source.text.toList)
    {root : Scope Span} (parsed : Scope.parse (division.tokens source) = .ok root) :
    root = ({ functions := root.statements } : Draft Span).complete source.eofToken.loc := by
  have path := division.after?_tokens source parsed
  rw [Division.tokens, Scope.parse_eq_run _ rfl, Draft.run_append _ _ path] at parsed
  exact (Except.ok.inj parsed).symm

/-- A program with functions stretches from the first to the last. -/
theorem Draft.loc_complete {draft : Draft Span} {first last : Node Span}
    (starts : draft.functions.head? = some first) (stops : draft.functions.getLast? = some last)
    (eof : Span) : (draft.complete eof).loc = ⟨first.loc.start, last.loc.stop⟩ := by
  simp only [Draft.complete, starts, stops]
  rfl

/-- The first token of a program with functions is the keyword of the first, and the last one before
the end of input is the brace that closes the last. -/
theorem Division.ends_of_functions (source : Source) (division : Division source.text.toList)
    {root : Scope Span} (parsed : Scope.parse (division.tokens source) = .ok root)
    (nonempty : root.statements ≠ []) :
    ∃ keyword brace, (division.tokens source)[0]? = some keyword ∧ keyword.isKeyword .fn ∧
      (division.tokens source)[division.pieces.length - 1]? = some brace ∧
      brace.kind = .rightBrace := by
  let before := Piece.tokens source [] division.pieces
  have lexemes : before.map (·.toLexeme) = root.lexemes := by
    rw [Piece.map_tokens, (division.lexemes_parsed source parsed).1]
  obtain ⟨atStart, atStop⟩ := Scope.lexemes_ends (Scope.isProgram_of_parse parsed) nonempty
  rw [← lexemes, List.head?_map] at atStart
  rw [← lexemes, List.getLast?_map] at atStop
  obtain ⟨keyword, isKeyword, keywordLexeme⟩ := Option.map_eq_some_iff.mp atStart
  obtain ⟨brace, isBrace, braceLexeme⟩ := Option.map_eq_some_iff.mp atStop
  have size : division.pieces.length = before.length :=
    (Piece.length_tokens source [] division.pieces).symm
  rw [List.head?_eq_getElem?] at isKeyword
  rw [List.getLast?_eq_getElem?, ← size] at isBrace
  have inside {index : Nat} {token : Token Span} (found : before[index]? = some token) :
      (division.tokens source)[index]? = some token :=
    (List.getElem?_append_left (List.getElem?_eq_some_iff.mp found).1).trans found
  refine ⟨keyword, brace, inside isKeyword, ?_, inside isBrace, ?_⟩
  · rw [keywordLexeme]
    rfl
  · rw [braceLexeme]
    rfl

/-- **Spans are exact and nested.** The functions of a program that is parsed from a text can be
marked with ranges of its tokens, such that the span of every node goes from the first token of its
range to the last. The ranges are not empty, and those of the children of a node are apart from each
other, in order and inside its own. The text of a span is read as the tokens of the range. The
functions are made of all tokens but the end of input: a program goes from the keyword of its first
function to the brace that closes its last one, and without functions it is where its end is. -/
theorem Scope.parse_spans_exact (text path : String) (tokens : List (Token Span))
    (root : Scope Span) (lexed : (Source.ofText text path).tokens = .ok tokens)
    (parsed : Scope.parse tokens = .ok root) :
    ∃ functions : List (Node TokenRange),
      root.statements = functions.map (Node.map (TokenRange.span tokens)) ∧
      (∀ node ∈ Scope.partsOfAll functions, node.StandsOn tokens) ∧
      functions.flatMap (·.loc.numbers) = List.range (tokens.length - 1) ∧
      (∀ first ∈ root.statements.head?, ∀ last ∈ root.statements.getLast?,
        ∃ keyword brace, tokens[0]? = some keyword ∧ keyword.isKeyword .fn ∧
          tokens[tokens.length - 2]? = some brace ∧ brace.kind = .rightBrace ∧
          first.loc.start = keyword.loc.start ∧ last.loc.stop = brace.loc.stop ∧
          root.loc = ⟨first.loc.start, last.loc.stop⟩) ∧
      (root.statements = [] → ∃ eof, tokens = [eof] ∧ eof.kind = .eof ∧ root.loc = eof.loc) := by
  obtain ⟨division, rfl⟩ := Source.exists_division lexed
  let source := Source.ofText text path
  let before := Piece.tokens source [] division.pieces
  obtain ⟨⟨functions, place⟩, _, mapped, nested⟩ :=
    Draft.exists_marked (division.after?_tokens source parsed) [source.eofToken]
  obtain rfl := ProgramPlace.eq_function_of_map (congrArg Draft.place mapped)
  have marked : functions.map (Node.map (TokenRange.span (division.tokens source))) =
      root.statements := congrArg Draft.functions mapped
  have size : before.length = division.pieces.length :=
    Piece.length_tokens source [] division.pieces
  have count : (division.tokens source).length = division.pieces.length + 1 := by
    rw [Division.tokens, List.length_append, size]
    rfl
  have cover : Node.Cover functions division.pieces.length := size ▸ nested
  refine ⟨functions, marked.symm, ?_, ?_, ?_, ?_⟩
  · intro node member
    have within : ∀ function ∈ functions,
        function.WellNested ∧ function.loc.stop ≤ division.pieces.length := fun function among =>
      ⟨cover.nested function among, cover.stop_le among⟩
    obtain ⟨here, ends⟩ :=
      Scope.forall_parts_all (Node.handedDown_nested _) functions within node member
    obtain ⟨nonempty, children⟩ := here.nests
    refine ⟨nonempty, ?_, division.exact_range nonempty ends, children.pairwise, ?_⟩
    · rw [count]
      exact Nat.lt_succ_of_le ends
    · exact fun child among => children.bounds child.loc (List.mem_map_of_mem among)
  · have numbers := cover.tiled.numbers_eq
    rw [List.flatMap_map] at numbers
    rw [numbers, count, Nat.add_sub_cancel, List.range_eq_range']
    rfl
  · intro first isFirst last isLast
    have nonempty : root.statements ≠ [] := by
      intro empty
      rw [empty] at isFirst
      cases isFirst
    obtain ⟨keyword, brace, starts, isKeyword, stops, isBrace⟩ :=
      division.ends_of_functions source parsed nonempty
    have loc := congrArg Scope.loc (division.parsed_eq source parsed)
    refine ⟨keyword, brace, starts, isKeyword, ?_, isBrace, ?_, ?_,
      loc.trans (Draft.loc_complete isFirst isLast _)⟩
    · rw [count]
      exact stops
    · rw [← marked, List.head?_map] at isFirst
      obtain ⟨origin, among, rfl⟩ := Option.map_eq_some_iff.mp isFirst
      rw [Node.loc_map, TokenRange.start_span ((cover.start_of_head among).symm ▸ starts)]
    · rw [← marked, List.getLast?_map] at isLast
      obtain ⟨origin, among, rfl⟩ := Option.map_eq_some_iff.mp isLast
      rw [Node.loc_map, TokenRange.stop_span ((cover.stop_of_last among).symm ▸ stops)]
  · intro empty
    obtain rfl : functions = [] := List.map_eq_nil_iff.mp (marked.trans empty)
    have none : division.pieces = [] := List.length_eq_zero_iff.mp cover.tiled.symm
    refine ⟨source.eofToken, ?_, rfl, ?_⟩
    · rw [Division.tokens, none]
      rfl
    · have loc := congrArg Scope.loc (division.parsed_eq source parsed)
      rw [empty] at loc
      exact loc

/-- A function with a block and a definition in it, and how its nodes are cut out of the text. -/
theorem Scope.parse_spans_exact_sample :
    let source := Source.ofText "fn f() i32\r\n\x7b\x7b \x7d var ä i32 = 1+ 2 *3; \x7d " "p"
    ∃ tokens root, source.tokens = .ok tokens ∧ Scope.parse tokens = .ok root ∧
      (Scope.partsOfAll root.statements).map (·.loc.substr?) =
        [some "fn f() i32\n\x7b\x7b \x7d var ä i32 = 1+ 2 *3; \x7d",
          some "\x7b\x7b \x7d var ä i32 = 1+ 2 *3; \x7d", some "\x7b \x7d",
          some "var ä i32 = 1+ 2 *3;", some "1+ 2 *3", some "1", some "2 *3", some "2",
          some "3"] ∧
      ∃ functions : List (Node TokenRange),
        root.statements = functions.map (Node.map (TokenRange.span tokens)) ∧
        (∀ node ∈ Scope.partsOfAll functions, node.StandsOn tokens) ∧
        functions.flatMap (·.loc.numbers) = List.range (tokens.length - 1) := by
  intro source
  have texts : (source.tokens.toOption.bind fun tokens => (Scope.parse tokens).toOption.map
      fun root => (Scope.partsOfAll root.statements).map (·.loc.substr?)) =
        some [some "fn f() i32\n\x7b\x7b \x7d var ä i32 = 1+ 2 *3; \x7d",
          some "\x7b\x7b \x7d var ä i32 = 1+ 2 *3; \x7d", some "\x7b \x7d",
          some "var ä i32 = 1+ 2 *3;", some "1+ 2 *3", some "1", some "2 *3", some "2",
          some "3"] := by
    decide +kernel
  cases lexed : source.tokens with
  | error fault =>
      rw [lexed] at texts
      cases texts
  | ok tokens =>
      rw [lexed] at texts
      cases parsed : Scope.parse tokens with
      | error fault =>
          change (Scope.parse tokens).toOption.map _ = _ at texts
          rw [parsed] at texts
          cases texts
      | ok root =>
          change (Scope.parse tokens).toOption.map _ = _ at texts
          rw [parsed] at texts
          obtain ⟨functions, marked, nodes, cover, _⟩ :=
            Scope.parse_spans_exact _ "p" tokens root lexed parsed
          exact ⟨tokens, root, rfl, parsed, Option.some.inj texts, functions, marked, nodes, cover⟩

end NcLang
