import NcLang.Proofs.Concatenation

/-! # Compilation looks at lexemes only

Two lists of tokens with the same lexemes are one list of tokens that have two locations each. It is
read once, and each side of the result is what one of the two lists is read to. So texts whose
tokens differ in their locations alone are compiled alike, and the path of a text does not matter
(`compile_of_same_lexemes`).
-/

namespace NcLang

variable {α β : Type}

/-! ## Two locations for each token -/

/-- Pairs of locations are stretched on each side. -/
instance [Stretch α] [Stretch β] : Stretch (α × β) where
  through first last := (Stretch.through first.1 last.1, Stretch.through first.2 last.2)

theorem keepsStretch_fst [Stretch α] [Stretch β] : KeepsStretch (Prod.fst : α × β → α) :=
  fun _ _ => rfl

theorem keepsStretch_snd [Stretch α] [Stretch β] : KeepsStretch (Prod.snd : α × β → β) :=
  fun _ _ => rfl

/-- Two lists of tokens with the same lexemes are the sides of one list. -/
theorem Token.exists_pairs {first : List (Token α)} {second : List (Token β)}
    (same : first.map (·.toLexeme) = second.map (·.toLexeme)) :
    ∃ both : List (Token (α × β)),
      both.map (Token.map Prod.fst) = first ∧ both.map (Token.map Prod.snd) = second := by
  induction first generalizing second with
  | nil =>
      cases second with
      | nil => exact ⟨[], rfl, rfl⟩
      | cons token second => cases same
  | cons token first ih =>
      cases second with
      | nil => cases same
      | cons other second =>
          obtain ⟨lexeme, later⟩ := List.cons.inj same
          obtain ⟨both, left, right⟩ := ih later
          obtain ⟨_, loc⟩ := token
          obtain ⟨_, loc'⟩ := other
          cases lexeme
          exact ⟨⟨_, (loc, loc')⟩ :: both, congrArg (_ :: ·) left, congrArg (_ :: ·) right⟩

/-- A run that fails does so at one of its tokens, if the last of them is the one met past the
end. -/
theorem Draft.exists_index_of_run [Stretch α] {draft : Draft α} {last : Token α}
    (tokens : List (Token α)) {fault : Located α GrammarFault}
    (failed : draft.run last (tokens ++ [last]) = .error fault) :
    ∃ (index : Nat) (token : Token α),
      (tokens ++ [last])[index]? = some token ∧ fault.loc = token.loc := by
  rcases Draft.run_cases draft last (tokens ++ [last]) with
    ⟨reached, _, result⟩ | ⟨before, token, after, reached, split, _, outcome⟩
  · cases failed.symm.trans result
    exact ⟨tokens.length, last, List.getElem?_concat_length, rfl⟩
  · rcases outcome with ⟨root, _, result⟩ | ⟨_, result⟩
    · cases failed.symm.trans result
    · cases failed.symm.trans result
      refine ⟨before.length, token, ?_, rfl⟩
      rw [split, List.getElem?_append_right (Nat.le_refl _), Nat.sub_self]
      rfl

/-! ## Parsing -/

/-- Two lists of tokens with the same lexemes are parsed to the same end: both to a tree, or both to
the same fault at tokens of the same index. -/
theorem Scope.parse_of_same_lexemes {first second : List (Token Span)} {eof eof' : Token Span}
    (isEof : eof.kind = .eof) (isEof' : eof'.kind = .eof)
    (same : (first ++ [eof]).map (·.toLexeme) = (second ++ [eof']).map (·.toLexeme)) :
    (∃ root root' : Scope Span, Scope.parse (first ++ [eof]) = .ok root ∧
        Scope.parse (second ++ [eof']) = .ok root') ∨
      ∃ (index : Nat) (token token' : Token Span) (cause : GrammarFault),
        (first ++ [eof])[index]? = some token ∧ (second ++ [eof'])[index]? = some token' ∧
        Scope.parse (first ++ [eof]) = .error { loc := token.loc, cause } ∧
        Scope.parse (second ++ [eof']) = .error { loc := token'.loc, cause } := by
  rw [Scope.parse_eq_run first isEof, Scope.parse_eq_run second isEof']
  rw [List.map_append, List.map_append] at same
  obtain ⟨sameFront, sameLast⟩ := List.append_inj' same rfl
  obtain ⟨both, rfl, rfl⟩ := Token.exists_pairs sameFront
  obtain ⟨ends, rfl, rfl⟩ : ∃ ends : Token (Span × Span),
      ends.map Prod.fst = eof ∧ ends.map Prod.snd = eof' := by
    obtain ⟨lexeme, loc⟩ := eof
    obtain ⟨lexeme', loc'⟩ := eof'
    cases (List.cons.inj sameLast).1
    exact ⟨⟨lexeme, (loc, loc')⟩, rfl, rfl⟩
  have left := Draft.run_map keepsStretch_fst ends {} (both ++ [ends])
  have right := Draft.run_map keepsStretch_snd ends {} (both ++ [ends])
  cases result : ({} : Draft (Span × Span)).run ends (both ++ [ends]) with
  | ok root =>
      rw [result, List.map_append] at left right
      exact .inl ⟨_, _, left, right⟩
  | error fault =>
      rw [result, List.map_append] at left right
      obtain ⟨index, token, found, located⟩ := Draft.exists_index_of_run both result
      obtain ⟨loc, cause⟩ := fault
      cases located
      have foundMap (f : Span × Span → Span) :
          (both.map (Token.map f) ++ [ends.map f])[index]? = some (token.map f) := by
        change (both.map (Token.map f) ++ [ends].map (Token.map f))[index]? = _
        rw [← List.map_append, List.getElem?_map, found]
        rfl
      exact .inr ⟨index, token.map Prod.fst, token.map Prod.snd, cause, foundMap Prod.fst,
        foundMap Prod.snd, left, right⟩

/-! ## Texts -/

/-- Texts with the same lexemes are compiled to the same end. -/
theorem compile_of_divisions {text text' path path' : String}
    (division : Division (Source.ofText text path).text.toList)
    (division' : Division (Source.ofText text' path').text.toList)
    (same : (division.tokens (Source.ofText text path)).map (·.toLexeme) =
      (division'.tokens (Source.ofText text' path')).map (·.toLexeme)) :
    (∃ out, compile text path = .ok out ∧ compile text' path' = .ok out) ∨
      ∃ (index : Nat) (token token' : Token Span) (cause : GrammarFault),
        (division.tokens (Source.ofText text path))[index]? = some token ∧
        (division'.tokens (Source.ofText text' path'))[index]? = some token' ∧
        compile text path = .error (.grammar { loc := token.loc, cause }) ∧
        compile text' path' = .error (.grammar { loc := token'.loc, cause }) := by
  rw [compile_eq, compile_eq, division.tokens_eq, division'.tokens_eq]
  dsimp only
  rcases Scope.parse_of_same_lexemes rfl rfl same with
    ⟨root, root', parsed, parsed'⟩ | ⟨index, token, token', cause, found, found', stuck, stuck'⟩
  · -- The C text is that of the lexemes, which are the same.
    have written := division.cText_eq _ parsed
    have written' := division'.cText_eq _ parsed'
    rw [← same] at written'
    left
    refine ⟨Lexeme.programText ((division.tokens (Source.ofText text path)).map (·.toLexeme)),
      ?_, ?_⟩
    · rw [Division.tokens, parsed]
      exact written
    · rw [Division.tokens, parsed']
      exact written'
  · right
    refine ⟨index, token, token', cause, found, found', ?_, ?_⟩
    · rw [Division.tokens, stuck]
    · rw [Division.tokens, stuck']

/-- The numbers that tell a place: line, column and index. -/
def Pos.counts (pos : Pos) : Nat × Nat × Nat :=
  (pos.line, pos.column, pos.index)

def Span.counts (span : Span) : (Nat × Nat × Nat) × (Nat × Nat × Nat) :=
  (span.start.counts, span.stop.counts)

theorem Pos.counts_shift (source : Source) (pos : Pos) :
    (pos.shift source "").counts = pos.counts := by
  simp [Pos.counts, Pos.shift]

/-- A place is told by the same numbers in another source of the same text. -/
theorem Located.map_counts_shift {Cause : Type} (source : Source) (fault : Located Span Cause) :
    (fault.map (Span.shift source "")).map Span.counts = fault.map Span.counts := by
  simp only [Located.map, Span.counts, Span.shift, Pos.counts_shift]

/-- Under another path, a text has the same tokens at the same places. -/
theorem Source.tokens_of_path (text path path' : String) :
    (Source.ofText text path').tokens =
      Located.mapResult (Span.shift (Source.ofText text path') "")
        (List.map (Token.map (Span.shift (Source.ofText text path') "")))
        (Source.ofText text path).tokens :=
  Token.scan_shift (Source.ofText text path') "" (Pos.origin (Source.ofText text path))
    (Source.ofText text path).text.toList

/-- **Compilation looks at lexemes only.** Texts whose tokens have the same kinds and values, at
whatever places, are compiled alike: both to the same C text, or both to the same fault of the
grammar, at tokens of the same index. In particular a text is compiled alike under all paths: to the
same C text, or to the same fault at the same line, column and index. -/
theorem compile_of_same_lexemes :
    (∀ (text text' path path' : String) (tokens tokens' : List (Token Span)),
      (Source.ofText text path).tokens = .ok tokens →
      (Source.ofText text' path').tokens = .ok tokens' →
      tokens.map (·.toLexeme) = tokens'.map (·.toLexeme) →
        (∃ out, compile text path = .ok out ∧ compile text' path' = .ok out) ∨
          ∃ (index : Nat) (token token' : Token Span) (cause : GrammarFault),
            tokens[index]? = some token ∧ tokens'[index]? = some token' ∧
            compile text path = .error (.grammar { loc := token.loc, cause }) ∧
            compile text' path' = .error (.grammar { loc := token'.loc, cause })) ∧
      ∀ text path path' : String,
        (∃ out, compile text path = .ok out ∧ compile text path' = .ok out) ∨
          (∃ fault fault', compile text path = .error (.lexical fault) ∧
            compile text path' = .error (.lexical fault') ∧
            fault.map Span.counts = fault'.map Span.counts) ∨
          ∃ fault fault', compile text path = .error (.grammar fault) ∧
            compile text path' = .error (.grammar fault') ∧
            fault.map Span.counts = fault'.map Span.counts := by
  refine ⟨?_, ?_⟩
  · intro text text' path path' tokens tokens' lexed lexed' same
    obtain ⟨division, rfl⟩ := Source.exists_division lexed
    obtain ⟨division', rfl⟩ := Source.exists_division lexed'
    exact compile_of_divisions division division' same
  · intro text path path'
    have moved := Source.tokens_of_path text path path'
    cases lexed : (Source.ofText text path).tokens with
    | error fault =>
        rw [lexed] at moved
        right; left
        refine ⟨fault, fault.map (Span.shift (Source.ofText text path') ""), ?_, ?_,
          (Located.map_counts_shift _ fault).symm⟩
        · rw [compile_eq, lexed]
        · rw [compile_eq, moved]
          rfl
    | ok tokens =>
        rw [lexed] at moved
        obtain ⟨division, rfl⟩ := Source.exists_division lexed
        obtain ⟨division', locations⟩ := Source.exists_division moved
        have same : (division.tokens (Source.ofText text path)).map (·.toLexeme) =
            (division'.tokens (Source.ofText text path')).map (·.toLexeme) := by
          rw [← locations, List.map_map]
          rfl
        rcases compile_of_divisions division division' same with
          compiled | ⟨index, token, token', cause, found, found', stuck, stuck'⟩
        · exact .inl compiled
        · rw [← locations, List.getElem?_map, found] at found'
          cases found'
          exact .inr (.inr ⟨_, _, stuck, stuck', (Located.map_counts_shift _ _).symm⟩)

/-- The tokens of an unfinished function that start and stop at some places of a source. -/
def Token.sampleUnfinished (source : Source) (starts stops : List (Nat × Nat × Nat)) :
    List (Token Span) :=
  let place : Nat × Nat × Nat → Pos := fun (line, column, index) => { line, column, index, source }
  List.zipWith (fun lexeme loc => { toLexeme := lexeme, loc })
    [.ofKeyword .fn, .ofName "f", .ofInt 7, .eof]
    (List.zipWith Span.mk (starts.map place) (stops.map place))

/-- One unfinished function, on one line and on two: both texts have the same fault at the same
token. -/
theorem compile_of_same_lexemes_sample :
    let first := Token.sampleUnfinished (Source.ofText "fn f 7" "a")
      [(0, 0, 0), (0, 3, 3), (0, 5, 5), (0, 6, 6)] [(0, 2, 2), (0, 4, 4), (0, 6, 6), (0, 6, 6)]
    let second := Token.sampleUnfinished (Source.ofText "fn\r\n f\t007" "b")
      [(0, 0, 0), (1, 1, 4), (1, 3, 6), (1, 6, 9)] [(0, 2, 2), (1, 2, 5), (1, 6, 9), (1, 6, 9)]
    (Source.ofText "fn f 7" "a").tokens = .ok first ∧
      (Source.ofText "fn\r\n f\t007" "b").tokens = .ok second ∧
      first.map (·.toLexeme) = second.map (·.toLexeme) ∧
      ∃ (index : Nat) (token token' : Token Span) (cause : GrammarFault),
        first[index]? = some token ∧ second[index]? = some token' ∧
        compile "fn f 7" "a" = .error (.grammar { loc := token.loc, cause }) ∧
        compile "fn\r\n f\t007" "b" = .error (.grammar { loc := token'.loc, cause }) := by
  intro first second
  have lexed : (Source.ofText "fn f 7" "a").tokens = .ok first := by decide +kernel
  have lexed' : (Source.ofText "fn\r\n f\t007" "b").tokens = .ok second := by decide +kernel
  have same : first.map (·.toLexeme) = second.map (·.toLexeme) := by decide +kernel
  refine ⟨lexed, lexed', same, ?_⟩
  rcases compile_of_same_lexemes.1 _ _ _ _ first second lexed lexed' same with
    ⟨out, compiled, _⟩ | stuck
  · have fails : (compile "fn f 7" "a").toOption = none := by decide +kernel
    rw [compiled] at fails
    cases fails
  · exact stuck

end NcLang
