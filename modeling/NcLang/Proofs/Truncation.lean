import NcLang.Proofs.NodeSpans

/-! # Programs that break off

The first tokens of a program are the beginning of it, so each of them can stand where it does, and
only the end of input after them may be out of place. It is in place right after a function, where
the functions up to there are a program of their own, and nowhere else (`Scope.parse_take`).
-/

namespace NcLang

variable {α : Type} {count : Nat}

/-! ## Complete functions -/

/-- A token either completes a function, and then it is the brace that closes it, or leaves the
complete functions as they are and stands within another one. -/
theorem Draft.Step.completes_or_stays [Stretch α] {draft next : Draft α} {token : Token α}
    (taken : Draft.Step draft.functions token draft.place next) :
    (next.functions = draft.functions ∧ next.place ≠ .function) ∨
      (token.kind = .rightBrace ∧ ∃ (head : FunctionHead α) (body : OpenBlock α),
        next = { functions := draft.functions ++ [head.complete (body.complete token.loc)] }) := by
  obtain ⟨functions, place⟩ := draft
  cases taken with
  | @within opened place step taken =>
      obtain ⟨head, outer, inner⟩ := opened
      cases taken with
      | closeBlock kind =>
          cases outer with
          | nil => exact .inr ⟨kind, head, inner, rfl⟩
          | cons block outer => exact .inl ⟨rfl, nofun⟩
      | _ => exact .inl ⟨rfl, nofun⟩
  | _ => exact .inl ⟨rfl, nofun⟩

/-- A draft that some tokens lead to between functions was led there by a brace. -/
theorem Draft.kind_of_last [Stretch α] {draft reached : Draft α} {before : List (Token α)}
    {last : Token α} (path : draft.after? (before ++ [last]) = some reached)
    (between : reached.place = .function) : last.kind = .rightBrace := by
  rw [Draft.after?_append] at path
  obtain ⟨middle, _, path⟩ := Option.bind_eq_some_iff.mp path
  obtain ⟨next, step, path⟩ := Draft.after?_cons path
  cases path
  rcases (Draft.step_of_read step).completes_or_stays with ⟨_, within⟩ | ⟨kind, _⟩
  · exact (within between).elim
  · exact kind

/-- Functions that are completed later end after the tokens before. -/
theorem Draft.exists_later {draft reached : Draft TokenRange} {tokens : List (Token α)}
    (path : draft.after? (Token.numbered count tokens) = some reached) :
    ∃ later, reached.functions = draft.functions ++ later ∧
      ∀ function ∈ later, count < function.loc.stop := by
  induction tokens generalizing draft count with
  | nil =>
      cases path
      exact ⟨[], (List.append_nil _).symm, fun _ member => (List.not_mem_nil member).elim⟩
  | cons token tokens ih =>
      obtain ⟨next, step, path⟩ := Draft.after?_cons path
      obtain ⟨later, functions, after⟩ := ih path
      have beyond : ∀ function ∈ later, count < function.loc.stop := fun function member =>
        Nat.lt_of_succ_lt (after function member)
      rcases (Draft.step_of_read step).completes_or_stays with
        ⟨same, _⟩ | ⟨_, head, body, rfl⟩
      · exact ⟨later, functions.trans (congrArg (· ++ later) same), beyond⟩
      · refine ⟨_ :: later, functions.trans (List.append_assoc ..), ?_⟩
        intro function member
        rcases List.mem_cons.mp member with rfl | member
        · exact Nat.lt_succ_self count
        · exact beyond function member

/-- The functions before an open node end before it does. -/
theorem OpenNode.Nested.exists_cover {functions : List (Node TokenRange)} {node : OpenNode}
    {outer : List OpenNode} (nested : OpenNode.Nested functions count (node :: outer)) :
    ∃ stop < count, Node.Cover functions stop := by
  induction outer generalizing count node with
  | nil => exact ⟨node.start, nested.1.ordered.le, nested.2⟩
  | cons next outer ih =>
      obtain ⟨stop, before, cover⟩ := ih nested.2
      exact ⟨stop, Nat.lt_trans before nested.1.ordered.le, cover⟩

theorem Draft.Nested.stop_le {draft : Draft TokenRange} (nested : draft.Nested count)
    {function : Node TokenRange} (member : function ∈ draft.functions) :
    function.loc.stop ≤ count := by
  rw [Draft.Nested] at nested
  cases opened : draft.place.opened with
  | nil =>
      rw [opened] at nested
      exact Node.Cover.stop_le nested member
  | cons node outer =>
      rw [opened] at nested
      obtain ⟨stop, before, cover⟩ := OpenNode.Nested.exists_cover nested
      exact Nat.le_trans (cover.stop_le member) (Nat.le_of_lt before)

theorem ProgramPlace.opened_eq_nil_iff {place : ProgramPlace TokenRange} :
    place.opened = [] ↔ place = .function := by
  cases place with
  | within around place =>
      refine ⟨fun empty => ?_, nofun⟩
      cases (List.append_eq_nil_iff.mp empty).2
  | function => exact ⟨fun _ => rfl, fun _ => rfl⟩
  | _ => exact ⟨nofun, nofun⟩

/-- A draft is between functions at its start and where a function ends, and nowhere else. -/
theorem Draft.Nested.place_iff {draft : Draft TokenRange} (nested : draft.Nested count) :
    draft.place = .function ↔
      count = 0 ∨ ∃ function ∈ draft.functions, function.loc.stop = count := by
  obtain ⟨functions, place⟩ := draft
  rw [Draft.Nested] at nested
  constructor
  · rintro rfl
    have cover : Node.Cover functions count := nested
    rcases List.eq_nil_or_concat functions with rfl | ⟨front, last, rfl⟩
    · exact .inl cover.tiled.symm
    · refine .inr ⟨last, ?_, cover.stop_of_last ?_⟩
      · rw [List.concat_eq_append]
        exact List.mem_append_right front List.mem_cons_self
      · rw [List.concat_eq_append]
        exact List.getLast?_concat
  · intro ended
    cases opened : place.opened with
    | nil => exact ProgramPlace.opened_eq_nil_iff.mp opened
    | cons node outer =>
        change OpenNode.Nested functions count place.opened at nested
        rw [opened] at nested
        obtain ⟨stop, before, cover⟩ := OpenNode.Nested.exists_cover nested
        rcases ended with rfl | ⟨function, member, rfl⟩
        · cases before
        · exact (Nat.not_lt_of_le (cover.stop_le member) before).elim

/-! ## The first tokens of a program -/

theorem Token.numbered_append (number : Nat) (first second : List (Token α)) :
    Token.numbered number (first ++ second) =
      Token.numbered number first ++ Token.numbered (number + first.length) second := by
  induction first generalizing number with
  | nil => rfl
  | cons token first ih =>
      rw [List.cons_append, Token.numbered, Token.numbered, ih, List.length_cons, List.cons_append,
        Nat.add_comm first.length, Nat.add_assoc]

/-- A program that breaks off after some of its tokens: the draft that these lead to, marked with
ranges, and the functions that end after them. -/
structure Draft.Break (tokens : List (Token Span)) (functions : List (Node Span))
    (count : Nat) where
  within : count ≤ tokens.length
  marked : Draft TokenRange
  later : List (Node TokenRange)
  reached : ({} : Draft Span).after? (tokens.take count) =
    some (marked.map (TokenRange.span tokens))
  functions_eq : functions = (marked.functions ++ later).map (Node.map (TokenRange.span tokens))
  cover : Node.Cover (marked.functions ++ later) tokens.length
  nested : marked.Nested count
  late : ∀ function ∈ later, count < function.loc.stop

theorem Draft.nonempty_break {tokens : List (Token Span)} {functions : List (Node Span)}
    (path : ({} : Draft Span).after? tokens = some { functions }) (within : count ≤ tokens.length) :
    Nonempty (Draft.Break tokens functions count) := by
  have split : tokens.take count ++ tokens.drop count = tokens := List.take_append_drop count tokens
  have size : (tokens.take count).length = count := List.length_take_of_le within
  have early := path
  rw [← split, Draft.after?_append] at early
  obtain ⟨reached, early, _⟩ := Option.bind_eq_some_iff.mp early
  obtain ⟨marked, read, mapped, nested⟩ := Draft.exists_marked early (tokens.drop count)
  obtain ⟨⟨all, place⟩, readAll, mappedAll, cover⟩ := Draft.exists_marked path []
  obtain rfl := ProgramPlace.eq_function_of_map (congrArg Draft.place mappedAll)
  rw [split] at mapped
  rw [size] at nested
  rw [List.append_nil] at mappedAll
  -- The numbered tokens lead to the whole program through the draft where it breaks off.
  rw [← split, Token.numbered_append, Draft.after?_append, read, Option.bind_some, size,
    Nat.zero_add] at readAll
  obtain ⟨later, appended, late⟩ := Draft.exists_later readAll
  change all = marked.functions ++ later at appended
  subst appended
  exact ⟨within, marked, later, early.trans (congrArg some mapped.symm),
    (congrArg Draft.functions mappedAll).symm, cover, nested, late⟩

/-- Tokens without an end of input that lead somewhere are a program if they lead between functions,
and else have a fault right after the last of them. -/
theorem Scope.parse_unterminated {tokens : List (Token Span)} {reached : Draft Span}
    (noEof : ∀ token ∈ tokens, token.kind ≠ .eof)
    (path : ({} : Draft Span).after? tokens = some reached) :
    (reached.place = .function →
        Scope.parse tokens = .ok (reached.complete (Token.endAfter tokens).loc)) ∧
      (reached.place ≠ .function → ∃ cause,
        Scope.parse tokens = .error { loc := (Token.endAfter tokens).loc, cause }) := by
  have terminated : Token.terminate tokens = tokens ++ [Token.endAfter tokens] := by
    rw [Token.terminate, if_neg]
    intro ends
    obtain ⟨last, isLast, kind⟩ := Option.any_eq_true .. |>.mp ends
    exact noEof last (List.mem_of_getLast? isLast) (of_decide_eq_true kind)
  rw [Scope.parse, terminated, List.getLastD_concat, Draft.run_append _ _ path]
  obtain ⟨functions, place⟩ := reached
  refine ⟨?_, ?_⟩
  · rintro rfl
    rfl
  · intro within
    rw [Draft.run]
    cases step : ({ functions, place } : Draft Span).read (Token.endAfter tokens) with
    | none => exact ⟨_, rfl⟩
    | some reading =>
        cases reading with
        | more next => exact (Draft.read_eof_ne_more rfl step).elim
        | complete root => exact (within (Draft.read_complete step).1).elim

/-! ## Where tokens stop -/

/-- Tokens that stop one after the other. -/
def Token.StopInOrder (tokens : List (Token Span)) : Prop :=
  tokens.Pairwise fun earlier later => earlier.loc.stop.index < later.loc.stop.index

/-- Each token stops after the ones before it. -/
theorem Piece.stopInOrder_tokens (source : Source) {pieces : List Piece} {rest : List Char}
    (fit : Piece.Fit pieces rest) (before : List Char) :
    (∀ token ∈ Piece.tokens source before pieces,
        (String.ofList before).utf8ByteSize < token.loc.stop.index) ∧
      Token.StopInOrder (Piece.tokens source before pieces) := by
  induction pieces generalizing before with
  | nil => exact ⟨fun _ member => (List.not_mem_nil member).elim, List.Pairwise.nil⟩
  | cons piece pieces ih =>
      obtain ⟨first, more, word⟩ := List.exists_cons_of_ne_nil
        (Piece.word_ne_nil fit piece List.mem_cons_self)
      obtain ⟨later, ordered⟩ := ih fit.2.2 (before ++ piece.gap ++ piece.word)
      have stop := source.index_posAfter (before ++ piece.gap ++ piece.word)
      have beyond : (String.ofList before).utf8ByteSize <
          (String.ofList (before ++ piece.gap ++ piece.word)).utf8ByteSize := by
        have wide := first.utf8Size_pos
        simp only [word, String.ofList_append, String.utf8ByteSize_append, Text.byteSize_cons]
        omega
      rw [← stop] at later beyond
      refine ⟨?_, List.pairwise_cons.mpr ⟨later, ordered⟩⟩
      intro token member
      rcases List.mem_cons.mp member with rfl | member
      · exact beyond
      · exact Nat.lt_trans beyond (later token member)

/-- Tokens that stop one after the other are told by where they stop. -/
theorem Token.StopInOrder.index_eq {tokens : List (Token Span)}
    (ordered : Token.StopInOrder tokens) {i j : Nat} {token other : Token Span}
    (here : tokens[i]? = some token) (there : tokens[j]? = some other)
    (same : token.loc.stop = other.loc.stop) : i = j := by
  obtain ⟨boundI, rfl⟩ := List.getElem?_eq_some_iff.mp here
  obtain ⟨boundJ, rfl⟩ := List.getElem?_eq_some_iff.mp there
  have index := congrArg Pos.index same
  rw [Token.StopInOrder, List.pairwise_iff_getElem] at ordered
  rcases Nat.lt_trichotomy i j with before | equal | after
  · have less := ordered i j boundI boundJ before
    omega
  · exact equal
  · have less := ordered j i boundJ boundI after
    omega

theorem Token.StopInOrder.mem_take_iff {tokens : List (Token Span)}
    (ordered : Token.StopInOrder tokens) {index : Nat} {token : Token Span}
    (here : tokens[index]? = some token) :
    token.loc.stop ∈ (tokens.take count).map (·.loc.stop) ↔ index < count := by
  constructor
  · intro member
    obtain ⟨other, among, same⟩ := List.mem_map.mp member
    obtain ⟨place, found⟩ := List.mem_iff_getElem?.mp among
    rw [List.getElem?_take] at found
    split at found
    · rename_i inside
      rw [ordered.index_eq here found same.symm]
      exact inside
    · cases found
  · intro inside
    refine List.mem_map.mpr ⟨token, List.mem_iff_getElem?.mpr ⟨index, ?_⟩, rfl⟩
    rw [List.getElem?_take, if_pos inside, here]

/-! ## Functions within the first tokens -/

/-- How many of some functions end with one of some tokens. -/
def Node.countWithin (functions : List (Node Span)) (tokens : List (Token Span)) : Nat :=
  functions.countP fun function => function.loc.stop ∈ tokens.map (·.loc.stop)

/-- A function that is made of some tokens stops with the last of them. -/
theorem Node.Cover.exists_last {tokens : List (Token Span)} {functions : List (Node TokenRange)}
    (cover : Node.Cover functions tokens.length) {function : Node TokenRange}
    (member : function ∈ functions) :
    0 < function.loc.stop ∧ ∃ last, tokens[function.loc.stop - 1]? = some last ∧
      (function.map (TokenRange.span tokens)).loc.stop = last.loc.stop := by
  have nonempty := (cover.nested function member).nests.nonempty
  have within := cover.stop_le member
  have inside : function.loc.stop - 1 < tokens.length := by omega
  have found := List.getElem?_eq_getElem inside
  refine ⟨by omega, _, found, ?_⟩
  rw [Node.loc_map, TokenRange.stop_span found]

/-- Some first tokens, but not none, end with one of the tokens. -/
theorem Token.take_eq_concat {tokens : List (Token Span)} {last : Token Span} (filled : 0 < count)
    (here : tokens[count - 1]? = some last) :
    tokens.take count = tokens.take (count - 1) ++ [last] := by
  obtain ⟨less, rfl⟩ := Nat.exists_eq_add_one_of_ne_zero (Nat.ne_of_gt filled)
  rw [Nat.add_sub_cancel] at here ⊢
  rw [List.take_add_one, here]
  rfl

namespace Draft.Break

variable {tokens : List (Token Span)} {functions : List (Node Span)}

/-- Parsing the tokens before a break succeeds if it is between functions, and else has a fault
right after them. -/
theorem parse_cases (broken : Break tokens functions count)
    (noEof : ∀ token ∈ tokens, token.kind ≠ .eof) :
    (broken.marked.place = .function ∧ ∃ eof, Scope.parse (tokens.take count) =
        .ok ((broken.marked.map (TokenRange.span tokens)).complete eof)) ∨
      (broken.marked.place ≠ .function ∧ ∃ last cause, tokens[count - 1]? = some last ∧
        Scope.parse (tokens.take count) = .error { loc := last.loc.stop.emptySpan, cause }) := by
  obtain ⟨between, inside⟩ := Scope.parse_unterminated
    (fun token member => noEof token (List.mem_of_mem_take member)) broken.reached
  by_cases complete : broken.marked.place = .function
  · exact .inl ⟨complete, _,
      between (congrArg (ProgramPlace.map (TokenRange.span tokens)) complete)⟩
  · obtain ⟨cause, failed⟩ :=
      inside fun mapped => complete (ProgramPlace.eq_function_of_map mapped)
    have filled : 0 < count := Nat.pos_of_ne_zero fun none =>
      complete (broken.nested.place_iff.mpr (.inl none))
    have bound : count - 1 < tokens.length :=
      Nat.lt_of_lt_of_le (Nat.sub_lt filled Nat.one_pos) broken.within
    have here := List.getElem?_eq_getElem bound
    rw [Token.endAfter, Token.take_eq_concat filled here, List.getLast?_concat,
      ← Token.take_eq_concat filled here] at failed
    exact .inr ⟨complete, _, cause, here, failed⟩

section Ordered

variable (broken : Break tokens functions count) (ordered : Token.StopInOrder tokens)
include ordered

/-- The last token before a break closes a function if and only if one of those that are complete
there ends with the break. -/
theorem closes_iff (filled : 0 < count) :
    (∃ function ∈ functions, ∃ last, tokens[count - 1]? = some last ∧
        last.loc.stop = function.loc.stop) ↔
      ∃ function ∈ broken.marked.functions, function.loc.stop = count := by
  constructor
  · rintro ⟨_, member, last, here, same⟩
    rw [broken.functions_eq] at member
    obtain ⟨function, among, rfl⟩ := List.mem_map.mp member
    obtain ⟨nonempty, other, there, stop⟩ := broken.cover.exists_last among
    have index := ordered.index_eq here there (same.trans stop)
    have stops : function.loc.stop = count := by omega
    refine ⟨function, ?_, stops⟩
    rcases List.mem_append.mp among with early | after
    · exact early
    · have beyond := broken.late function after
      omega
  · rintro ⟨function, member, rfl⟩
    have among := List.mem_append_left broken.later member
    obtain ⟨_, last, found, stop⟩ := broken.cover.exists_last among
    refine ⟨function.map (TokenRange.span tokens), ?_, last, found, stop.symm⟩
    rw [broken.functions_eq]
    exact List.mem_map_of_mem among

/-- A break is between functions at the start and after the brace that closes a function, and
nowhere else. -/
theorem place_iff :
    broken.marked.place = .function ↔
      count = 0 ∨ ∃ function ∈ functions, ∃ brace, tokens[count - 1]? = some brace ∧
        brace.kind = .rightBrace ∧ brace.loc.stop = function.loc.stop := by
  rw [broken.nested.place_iff]
  rcases Nat.eq_zero_or_pos count with none | filled
  · exact ⟨fun _ => .inl none, fun _ => .inl none⟩
  rw [← broken.closes_iff ordered filled]
  constructor
  · intro ended
    obtain ⟨function, member, last, here, stop⟩ := ended.resolve_left (Nat.ne_of_gt filled)
    have between := broken.nested.place_iff.mpr
      (.inr ((broken.closes_iff ordered filled).mp ⟨function, member, last, here, stop⟩))
    -- Only a brace leads out of a function, and here is the token that did.
    have reached := broken.reached
    rw [Token.take_eq_concat filled here] at reached
    have brace := Draft.kind_of_last reached
      (congrArg (ProgramPlace.map (TokenRange.span tokens)) between)
    exact .inr ⟨function, member, last, here, brace, stop⟩
  · rintro (none | ⟨function, member, brace, here, _, stop⟩)
    · exact .inl none
    · exact .inr ⟨function, member, brace, here, stop⟩

/-- The functions that end within the tokens before a break are those that are complete there. -/
theorem countWithin_eq :
    Node.countWithin functions (tokens.take count) = broken.marked.functions.length := by
  have ends {function : Node TokenRange}
      (member : function ∈ broken.marked.functions ++ broken.later) :
      (function.map (TokenRange.span tokens)).loc.stop ∈ (tokens.take count).map (·.loc.stop) ↔
        function.loc.stop ≤ count := by
    obtain ⟨filled, last, found, stop⟩ := broken.cover.exists_last member
    rw [stop, ordered.mem_take_iff found]
    omega
  refine (congrArg (Node.countWithin · (tokens.take count)) broken.functions_eq).trans ?_
  rw [Node.countWithin, List.countP_map, List.countP_append, List.countP_eq_length.mpr,
    List.countP_eq_zero.mpr, Nat.add_zero]
  · intro function member inside
    have within := (ends (List.mem_append_right _ member)).mp (of_decide_eq_true inside)
    exact Nat.not_lt_of_le within (broken.late function member)
  · intro function member
    exact decide_eq_true
      ((ends (List.mem_append_left _ member)).mpr (broken.nested.stop_le member))

/-- Where a program breaks off between functions, its first functions are left, up to the last one
that ends there. -/
theorem complete_eq (eof : Span) :
    let part := (broken.marked.map (TokenRange.span tokens)).complete eof
    let m := Node.countWithin functions (tokens.take count)
    part.statements = functions.take m ∧
      (1 ≤ m → ∃ first last, functions[0]? = some first ∧ functions[m - 1]? = some last ∧
        part.loc = ⟨first.loc.start, last.loc.stop⟩) := by
  intro part m
  let early := part.statements
  let rest := broken.later.map (Node.map (TokenRange.span tokens))
  have size : m = early.length :=
    (broken.countWithin_eq ordered).trans (List.length_map _).symm
  have split : functions = early ++ rest := broken.functions_eq.trans List.map_append
  refine ⟨?_, ?_⟩
  · calc part.statements
        = (early ++ rest).take early.length := List.take_left.symm
      _ = functions.take m := by rw [← split, size]
  · intro some
    have filled : 0 < early.length := size ▸ some
    have nonempty : early ≠ [] := List.length_pos_iff.mp filled
    have first := List.head?_eq_some_head nonempty
    have last := List.getLast?_eq_some_getLast nonempty
    have inside {index : Nat} (bound : index < early.length) :
        functions[index]? = early[index]? :=
      (congrArg (·[index]?) split).trans (List.getElem?_append_left bound)
    refine ⟨early.head nonempty, early.getLast nonempty, ?_, ?_, Draft.loc_complete first last eof⟩
    · rw [inside filled, ← List.head?_eq_getElem?, first]
    · rw [size, inside (Nat.sub_lt filled Nat.one_pos), ← List.getLast?_eq_getElem?, last]

end Ordered

end Draft.Break

/-- **A program that breaks off is a program only between functions.** Let the end of input be left
out after some number of the tokens of a program. Parsing succeeds if and only if there are none, or
the last of them is the brace that closes a function of the program. It then gives the functions
that end within these tokens, which are the first ones, from the start of the first to the stop of
the last. Else there is a fault right after the last token. -/
theorem Scope.parse_take (text path out : String) (compiled : compile text path = .ok out) :
    ∃ tokens eof root, (Source.ofText text path).tokens = .ok (tokens ++ [eof]) ∧
      eof.kind = .eof ∧ Scope.parse (tokens ++ [eof]) = .ok root ∧
      ∀ k ≤ tokens.length,
        ((∃ part, Scope.parse (tokens.take k) = .ok part) ↔
          k = 0 ∨ ∃ function ∈ root.statements, ∃ brace, tokens[k - 1]? = some brace ∧
            brace.kind = .rightBrace ∧ brace.loc.stop = function.loc.stop) ∧
        (∀ part, Scope.parse (tokens.take k) = .ok part →
          let m := Node.countWithin root.statements (tokens.take k)
          part.statements = root.statements.take m ∧
            (1 ≤ m → ∃ first last, root.statements[0]? = some first ∧
              root.statements[m - 1]? = some last ∧
              part.loc = ⟨first.loc.start, last.loc.stop⟩)) ∧
        ∀ fault, Scope.parse (tokens.take k) = .error fault →
          ∃ last, tokens[k - 1]? = some last ∧ fault.loc = last.loc.stop.emptySpan := by
  obtain ⟨_, lexed, root, parsed, _⟩ := compile_eq_ok_iff.mp compiled
  obtain ⟨division, rfl⟩ := Source.exists_division lexed
  let source := Source.ofText text path
  let tokens := Piece.tokens source [] division.pieces
  have ordered := (Piece.stopInOrder_tokens source division.fit []).2
  have noEof : ∀ token ∈ tokens, token.kind ≠ .eof := by
    have eofLast := (division.consistent_tokens source).eofLast
    rw [Division.tokens, List.dropLast_concat] at eofLast
    exact eofLast
  refine ⟨tokens, source.eofToken, root, lexed, rfl, parsed, ?_⟩
  intro k within
  obtain ⟨broken⟩ := Draft.nonempty_break (division.after?_tokens source parsed) within
  rw [← broken.place_iff ordered]
  rcases broken.parse_cases noEof with ⟨between, eof, given⟩ | ⟨inside, last, cause, here, failed⟩
  · refine ⟨⟨fun _ => between, fun _ => ⟨_, given⟩⟩, ?_, ?_⟩
    · intro part result
      cases given.symm.trans result
      exact broken.complete_eq ordered eof
    · intro fault result
      cases given.symm.trans result
  · refine ⟨⟨?_, fun between => (inside between).elim⟩, ?_, ?_⟩
    · rintro ⟨part, result⟩
      cases failed.symm.trans result
    · intro part result
      cases failed.symm.trans result
    · intro fault result
      cases failed.symm.trans result
      exact ⟨last, here, rfl⟩

/-- Of two functions of nine and seven tokens, the first inner brace closes no function. -/
theorem Scope.parse_take_sample :
    let text := "fn f() i32 \x7b\x7b\x7d\x7d\nfn g() i32 \x7b\x7d"
    compile text "p" = .ok "int f() \x7b\n\x7d\nint g() \x7b\n\x7d\n" ∧
      ∃ tokens eof root, (Source.ofText text "p").tokens = .ok (tokens ++ [eof]) ∧
        Scope.parse (tokens ++ [eof]) = .ok root ∧
        ((List.range 17).filter fun k => (Scope.parse (tokens.take k)).toOption.isSome) =
          [0, 9, 16] ∧
        ∀ k ≤ tokens.length,
          (∃ part, Scope.parse (tokens.take k) = .ok part) ↔
            k = 0 ∨ ∃ function ∈ root.statements, ∃ brace, tokens[k - 1]? = some brace ∧
              brace.kind = .rightBrace ∧ brace.loc.stop = function.loc.stop := by
  intro text
  have compiled : compile text "p" = .ok "int f() \x7b\n\x7d\nint g() \x7b\n\x7d\n" := by
    decide +kernel
  have breaks : ((Source.ofText text "p").tokens.toOption.map fun tokens =>
      (List.range 17).filter fun k => (Scope.parse (tokens.dropLast.take k)).toOption.isSome) =
        some [0, 9, 16] := by
    decide +kernel
  obtain ⟨tokens, eof, root, lexed, _, parsed, taken⟩ := Scope.parse_take text "p" _ compiled
  rw [lexed] at breaks
  have within := Option.some.inj breaks
  simp only [List.dropLast_concat] at within
  exact ⟨compiled, tokens, eof, root, lexed, parsed, within, fun k bound => (taken k bound).1⟩

end NcLang
