import NcLang.Proofs.Sentences
import NcLang.Tree.Parse

/-! # Parsing accepts the programs of the grammar

On tokens that are consistent, parsing succeeds for the lexemes of programs and for no others, and
gives back the program that the lexemes are written for. So parsing undoes writing, and no two
programs are written alike.
-/

namespace NcLang

variable {α : Type}

/-! ## The end of input -/

/-- The end of input does not lead on from any draft. -/
theorem Draft.read_eof_ne_more [Stretch α] {draft next : Draft α} {token : Token α}
    (eof : token.toLexeme = Lexeme.eof) : draft.read token ≠ some (.more next) := by
  intro read
  obtain ⟨lexeme, loc⟩ := token
  cases eof
  obtain ⟨functions, place⟩ := draft
  cases Draft.step_of_read read with
  | keyword keyword => cases keyword
  | name named => cases named
  | leftParen kind => cases kind
  | rightParen kind => cases kind
  | type keyword => cases keyword
  | body kind => cases kind
  | within taken =>
      cases taken with
      | closeBlock kind => cases kind
      | openBlock kind => cases kind
      | keyword keyword => cases keyword
      | name named => cases named
      | type keyword => cases keyword
      | equals kind => cases kind
      | operand counted => cases counted
      | star kind => cases kind
      | plus kind => cases kind
      | semicolon kind => cases kind

/-- Tokens that end with an end of input get no other one. -/
theorem Token.terminate_concat {before : List (Token Span)} {eof : Token Span}
    (isEof : eof.kind = .eof) : Token.terminate (before ++ [eof]) = before ++ [eof] := by
  rw [Token.terminate, List.getLast?_concat, Option.any_some, decide_eq_true isEof]
  rfl

/-- The tokens that a parser reads: tokens with a value where one is due, then the end of input. -/
structure Token.Terminated (tokens before : List (Token Span)) (eof : Token Span) : Prop where
  terminate : Token.terminate tokens = before ++ [eof]
  eofLexeme : eof.toLexeme = Lexeme.eof
  consistent : ∀ token ∈ before, token.isConsistent
  noEof : ∀ token ∈ before, token.kind ≠ .eof
  lexemes : before.map (·.toLexeme) = Token.lexemesBeforeEof tokens

theorem Token.lexemesBeforeEof_append {before : List (Token α)} (after : List (Token α))
    (noEof : ∀ token ∈ before, token.kind ≠ .eof) :
    Token.lexemesBeforeEof (before ++ after) =
      before.map (·.toLexeme) ++ Token.lexemesBeforeEof after := by
  rw [Token.lexemesBeforeEof, List.takeWhile_append_of_pos, List.map_append]
  · rfl
  · intro token member
    exact decide_eq_true (noEof token member)

/-- Consistent tokens are terminated by one end of input. -/
theorem Token.Consistent.terminated {tokens : List (Token Span)}
    (consistent : Token.Consistent tokens) :
    ∃ before eof, Token.Terminated tokens before eof := by
  obtain ⟨lexemes, eofLast⟩ := consistent
  rcases List.eq_nil_or_concat tokens with rfl | ⟨before, last, rfl⟩
  · exact ⟨[], Token.endAfter [], rfl, rfl, fun _ member => (List.not_mem_nil member).elim,
      fun _ member => (List.not_mem_nil member).elim, rfl⟩
  · rw [List.concat_eq_append] at *
    rw [List.dropLast_concat] at eofLast
    have beforeConsistent : ∀ token ∈ before, token.isConsistent := fun token member =>
      lexemes token (List.mem_append_left [last] member)
    have lastConsistent : last.isConsistent :=
      lexemes last (List.mem_append_right before List.mem_cons_self)
    by_cases isEof : last.kind = .eof
    · refine ⟨before, last, Token.terminate_concat isEof,
        Lexeme.eq_ofKind lastConsistent isEof rfl, beforeConsistent, eofLast, ?_⟩
      rw [Token.lexemesBeforeEof_append [last] eofLast, Token.lexemesBeforeEof,
        List.takeWhile_cons_of_neg (by simpa using isEof), List.map_nil, List.append_nil]
    · refine ⟨before ++ [last], Token.endAfter (before ++ [last]), ?_, rfl, lexemes, ?_, ?_⟩
      · rw [Token.terminate, List.getLast?_concat, Option.any_some, decide_eq_false isEof]
        rfl
      · intro token member
        rcases List.mem_append.mp member with early | late
        · exact eofLast token early
        · rw [List.mem_singleton.mp late]
          exact isEof
      · rw [Token.lexemesBeforeEof_append [last] eofLast, Token.lexemesBeforeEof,
          List.takeWhile_cons_of_pos (by simpa using isEof), List.map_append]
        rfl

theorem Token.Terminated.parse_eq {tokens before : List (Token Span)} {eof : Token Span}
    (terminated : Token.Terminated tokens before eof) :
    Scope.parse tokens = ({} : Draft Span).run eof (before ++ [eof]) := by
  rw [Scope.parse, terminated.terminate, List.getLastD_concat]

/-! ## Programs that parsing accepts -/

/-- Parsing ends at the end of input with all functions, or before it at a token that cannot stand
where it does. -/
theorem Token.Terminated.parse_cases {tokens before : List (Token Span)} {eof : Token Span}
    (terminated : Token.Terminated tokens before eof) :
    (∃ functions, ({} : Draft Span).after? before = some { functions } ∧
        Scope.parse tokens = .ok (({ functions } : Draft Span).complete eof.loc)) ∨
      ∃ read token later reached, before ++ [eof] = read ++ token :: later ∧
        ({} : Draft Span).after? read = some reached ∧ reached.read token = none ∧
        Scope.parse tokens =
          .error { loc := token.loc, cause := reached.place.fault token.toLexeme } := by
  rw [terminated.parse_eq]
  rcases Draft.run_cases {} eof (before ++ [eof]) with
    ⟨reached, path, _⟩ | ⟨read, token, later, reached, split, path, outcome⟩
  · rw [Draft.after?_append] at path
    obtain ⟨middle, _, further⟩ := Option.bind_eq_some_iff.mp path
    obtain ⟨next, step, _⟩ := Draft.after?_cons further
    exact (Draft.read_eof_ne_more terminated.eofLexeme step).elim
  · rcases outcome with ⟨root, step, result⟩ | ⟨stuck, result⟩
    · obtain ⟨place, kind, rfl⟩ := Draft.read_complete step
      obtain ⟨functions, _⟩ := reached
      cases place
      -- The token that completes the program is an end of input, so it is the last one.
      have last : read = before ∧ token = eof := by
        refine (split_before_end split).resolve_left ?_
        rintro ⟨rest, rfl⟩
        exact terminated.noEof token (List.mem_append_right read List.mem_cons_self) kind
      obtain ⟨rfl, rfl⟩ := last
      exact .inl ⟨functions, path, result⟩
    · exact .inr ⟨read, token, later, reached, split, path, stuck, result⟩

/-- No two programs are written with the same lexemes. -/
theorem Scope.lexemes_injective {first second : Scope Unit} (shapedFirst : first.isProgram)
    (shapedSecond : second.isProgram) (same : first.lexemes = second.lexemes) :
    first = second := by
  have functions := Draft.follow_program shapedFirst
  rw [same, Draft.follow_program shapedSecond] at functions
  obtain ⟨kind, statements, loc⟩ := first
  obtain ⟨kind', statements', loc'⟩ := second
  rw [Scope.isProgram, Bool.and_eq_true] at shapedFirst shapedSecond
  obtain rfl : kind = .global := of_decide_eq_true shapedFirst.1
  obtain rfl : kind' = .global := of_decide_eq_true shapedSecond.1
  cases functions
  rfl

/-- Whatever the tokens are, a program that parsing gives is a program of the grammar. -/
theorem Scope.isProgram_of_parse {tokens : List (Token Span)} {root : Scope Span}
    (parsed : Scope.parse tokens = .ok root) : root.isProgram := by
  rw [Scope.parse] at parsed
  rcases Draft.run_cases {} _ (Token.terminate tokens) with
    ⟨_, _, result⟩ | ⟨read, token, later, reached, _, path, outcome⟩
  · cases parsed.symm.trans result
  · rcases outcome with ⟨complete, step, result⟩ | ⟨_, result⟩
    · cases parsed.symm.trans result
      obtain ⟨_, _, rfl⟩ := Draft.read_complete step
      exact (Draft.after?_wellShaped Draft.wellShaped_empty path).functions
    · cases parsed.symm.trans result

/-- A program that parsing gives is a program of the grammar, written with the lexemes read. -/
theorem Scope.parse_sound {tokens : List (Token Span)} {root : Scope Span}
    (consistent : Token.Consistent tokens) (parsed : Scope.parse tokens = .ok root) :
    root.isProgram ∧ Token.lexemesBeforeEof tokens = root.lexemes := by
  obtain ⟨before, eof, terminated⟩ := consistent.terminated
  rcases terminated.parse_cases with ⟨functions, path, result⟩ | ⟨_, _, _, _, _, _, _, result⟩
  · have program := Scope.isProgram_of_parse parsed
    cases parsed.symm.trans result
    refine ⟨program, ?_⟩
    have lexemes := Draft.after?_lexemes terminated.consistent path
    rw [terminated.lexemes] at lexemes
    rw [Scope.lexemes_program program]
    exact lexemes.symm.trans (List.append_nil _)
  · cases parsed.symm.trans result

/-- Parsing gives back a program whose lexemes it reads. -/
theorem Scope.parse_complete {tokens : List (Token Span)} {program : Scope Unit}
    (consistent : Token.Consistent tokens) (shaped : program.isProgram)
    (written : Token.lexemesBeforeEof tokens = program.lexemes) :
    ∃ root, Scope.parse tokens = .ok root ∧ root.erase = program := by
  obtain ⟨before, eof, terminated⟩ := consistent.terminated
  have path := Draft.after?_unit before
  rw [terminated.lexemes, written, Draft.follow_program shaped] at path
  obtain ⟨⟨functions, place⟩, reached, mapped⟩ := Option.map_eq_some_iff.mp path
  obtain rfl := ProgramPlace.eq_function_of_map (congrArg Draft.place mapped)
  refine ⟨({ functions } : Draft Span).complete eof.loc, ?_, ?_⟩
  · rw [terminated.parse_eq, Draft.run_append eof [eof] reached]
    obtain ⟨lexeme, loc⟩ := eof
    cases terminated.eofLexeme
    rfl
  · obtain ⟨kind, statements, loc⟩ := program
    rw [Scope.isProgram, Bool.and_eq_true] at shaped
    obtain rfl : kind = .global := of_decide_eq_true shaped.1
    calc (({ functions } : Draft Span).complete eof.loc).erase
        = (({ functions } : Draft Span).map fun _ => ()).complete () :=
          Draft.complete_map keepsStretch_unit _ _
      _ = ({ functions := statements } : Draft Unit).complete () := by rw [mapped]
      _ = ⟨.global, statements, loc⟩ := rfl

/-- **Parsing accepts the grammar and undoes writing.** For consistent tokens, parsing succeeds if
and only if the lexemes before the end of input are those of some program. There is at most one such
program, and parsing gives it back, with locations added. -/
theorem Scope.parse_ok_iff_program (tokens : List (Token Span))
    (consistent : Token.Consistent tokens) :
    ((∃ root, Scope.parse tokens = .ok root) ↔
        ∃ program : Scope Unit, program.isProgram ∧
          Token.lexemesBeforeEof tokens = program.lexemes) ∧
      (∀ first second : Scope Unit, first.isProgram → second.isProgram →
        Token.lexemesBeforeEof tokens = first.lexemes →
        Token.lexemesBeforeEof tokens = second.lexemes → first = second) ∧
      ∀ (root : Scope Span) (program : Scope Unit), Scope.parse tokens = .ok root →
        program.isProgram → Token.lexemesBeforeEof tokens = program.lexemes →
        root.erase = program := by
  refine ⟨⟨?_, ?_⟩, ?_, ?_⟩
  · rintro ⟨root, parsed⟩
    obtain ⟨shaped, written⟩ := Scope.parse_sound consistent parsed
    refine ⟨root.erase, ?_, ?_⟩
    · rw [Scope.erase, Scope.isProgram_map]
      exact shaped
    · rw [Scope.erase, Scope.lexemes_map]
      exact written
  · rintro ⟨program, shaped, written⟩
    obtain ⟨root, parsed, _⟩ := Scope.parse_complete consistent shaped written
    exact ⟨root, parsed⟩
  · intro first second shapedFirst shapedSecond writtenFirst writtenSecond
    exact Scope.lexemes_injective shapedFirst shapedSecond
      (writtenFirst.symm.trans writtenSecond)
  · intro root program parsed shaped written
    obtain ⟨other, parsedOther, erased⟩ := Scope.parse_complete consistent shaped written
    cases parsed.symm.trans parsedOther
    exact erased

/-- Tokens of one character each, in a row. -/
def Token.inRow (lexemes : List Lexeme) : List (Token Span) :=
  let place (column : Nat) : Pos := ⟨0, column, column, { text := "", path := "" }⟩
  lexemes.zipIdx.map fun (lexeme, column) =>
    { toLexeme := lexeme, loc := { start := place column, stop := place (column + 1) } }

/-- A function with an empty block and a sum with a product in it, as it is written. -/
def Token.sampleFunction : List (Token Span) :=
  Token.inRow [.ofKeyword .fn, .ofName "f", .ofKind .leftParen, .ofKind .rightParen,
    .ofKeyword .i32, .ofKind .leftBrace, .ofKind .leftBrace, .ofKind .rightBrace,
    .ofKeyword .var, .ofName "x", .ofKeyword .i32, .ofKind .equals, .ofInt 1, .ofKind .plus,
    .ofInt 2, .ofKind .star, .ofInt 3, .ofKind .plus, .ofInt 4, .ofKind .semicolon,
    .ofKind .rightBrace]

/-- The tree of that function, with the operators grouped to the left. -/
def Scope.sampleProgram : Scope Unit :=
  ⟨.global, [.funcDef "f" .i32 ⟨.block, [.scope ⟨.block, [], ()⟩, .varDef "x" .i32
    (.binary .add
      (.binary .add (.literal 1 ()) (.binary .mul (.literal 2 ()) (.literal 3 ()) ()) ())
      (.literal 4 ()) ()) ()], ()⟩ ()], ()⟩

/-- The sample is parsed, to the tree it is written for. -/
theorem Scope.parse_sampleFunction :
    Token.Consistent Token.sampleFunction ∧
      ∃ root, Scope.parse Token.sampleFunction = .ok root ∧ root.erase = Scope.sampleProgram := by
  have consistent : Token.Consistent Token.sampleFunction := by decide
  have shaped : Scope.sampleProgram.isProgram = true := by decide
  have written : Token.lexemesBeforeEof Token.sampleFunction = Scope.sampleProgram.lexemes := by
    decide
  obtain ⟨accepted, _, given⟩ := Scope.parse_ok_iff_program Token.sampleFunction consistent
  obtain ⟨root, parsed⟩ := accepted.mpr ⟨Scope.sampleProgram, shaped, written⟩
  exact ⟨consistent, root, parsed, given root Scope.sampleProgram parsed shaped written⟩

end NcLang
