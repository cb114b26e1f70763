import NcLang.Proofs.ParseProgram

/-! # Faults are found as early as they can be

Every draft can be completed (`Draft.closes`), so the lexemes that a parser has read are always the
beginning of some sentence. A token that cannot be read goes on with no sentence, since sentences
can be read to their end. And what the fault asks for could have been read in its place.
-/

namespace NcLang

/-! ## Every draft can be completed -/

/-- Drafts from which some lexemes lead to complete functions only. -/
def Draft.Closes (draft : Draft Unit) : Prop :=
  ∃ lexemes functions, (∀ lexeme ∈ lexemes, Lexeme.isConsistent lexeme) ∧
    draft.follow lexemes = some { functions }

theorem Draft.closes_of_read {draft next : Draft Unit} (lexeme : Lexeme)
    (consistent : lexeme.isConsistent)
    (step : draft.read (Token.plain lexeme) = some (.more next)) (closes : next.Closes) :
    draft.Closes := by
  obtain ⟨lexemes, functions, all, path⟩ := closes
  refine ⟨lexeme :: lexemes, functions, ?_, Draft.follow_cons step path⟩
  intro other member
  rcases List.mem_cons.mp member with rfl | member
  · exact consistent
  · exact all other member

/-- Between two statements, closing braces complete the function. -/
theorem Draft.closes_statement (functions : List (Node Unit)) (head : FunctionHead Unit)
    (outer : List (OpenBlock Unit)) (inner : OpenBlock Unit) :
    (Draft.within functions ⟨head, outer, inner⟩ .statement).Closes := by
  induction outer generalizing inner with
  | nil =>
      refine Draft.closes_of_read (.ofKind .rightBrace) rfl rfl ?_
      exact ⟨[], _, nofun, rfl⟩
  | cons block outer ih => exact Draft.closes_of_read (.ofKind .rightBrace) rfl rfl (ih _)

theorem Draft.closes_within (functions : List (Node Unit)) (opened : OpenFunction Unit)
    (place : BlockPlace Unit) : (Draft.within functions opened place).Closes := by
  obtain ⟨head, outer, inner⟩ := opened
  have operator (definition : VariableHead Unit) (sum : Option (Node Unit)) (product : Node Unit) :
      (Draft.within functions ⟨head, outer, inner⟩ (.operator definition sum product)).Closes :=
    Draft.closes_of_read (.ofKind .semicolon) rfl rfl (Draft.closes_statement ..)
  have operand (definition : VariableHead Unit) (before : Operands Unit) :
      (Draft.within functions ⟨head, outer, inner⟩ (.operand definition before)).Closes :=
    Draft.closes_of_read (.ofInt 0) rfl rfl (operator ..)
  have equals (definition : VariableHead Unit) :
      (Draft.within functions ⟨head, outer, inner⟩ (.equals definition)).Closes :=
    Draft.closes_of_read (.ofKind .equals) rfl rfl (operand ..)
  have type (loc : Unit) (name : String) :
      (Draft.within functions ⟨head, outer, inner⟩ (.variableType loc name)).Closes :=
    Draft.closes_of_read (.ofKeyword .i32) rfl rfl (equals _)
  cases place with
  | statement => exact Draft.closes_statement functions head outer inner
  | variableName loc => exact Draft.closes_of_read (.ofName "x") rfl rfl (type loc "x")
  | variableType loc name => exact type loc name
  | equals definition => exact equals definition
  | operand definition before => exact operand definition before
  | operator definition sum product => exact operator definition sum product

/-- Every draft can be completed. -/
theorem Draft.closes (draft : Draft Unit) : draft.Closes := by
  obtain ⟨functions, place⟩ := draft
  have body (head : FunctionHead Unit) :
      ({ functions, place := .body head } : Draft Unit).Closes :=
    Draft.closes_of_read (.ofKind .leftBrace) rfl rfl (Draft.closes_within ..)
  have returnType (loc : Unit) (name : String) :
      ({ functions, place := .returnType loc name } : Draft Unit).Closes :=
    Draft.closes_of_read (.ofKeyword .i32) rfl rfl (body _)
  have rightParen (loc : Unit) (name : String) :
      ({ functions, place := .rightParen loc name } : Draft Unit).Closes :=
    Draft.closes_of_read (.ofKind .rightParen) rfl rfl (returnType loc name)
  have leftParen (loc : Unit) (name : String) :
      ({ functions, place := .leftParen loc name } : Draft Unit).Closes :=
    Draft.closes_of_read (.ofKind .leftParen) rfl rfl (rightParen loc name)
  cases place with
  | function => exact ⟨[], functions, nofun, rfl⟩
  | functionName loc => exact Draft.closes_of_read (.ofName "f") rfl rfl (leftParen loc "f")
  | leftParen loc name => exact leftParen loc name
  | rightParen loc name => exact rightParen loc name
  | returnType loc name => exact returnType loc name
  | body head => exact body head
  | within opened place => exact Draft.closes_within functions opened place

/-! ## Viable lexemes are those that can be read -/

/-- Lexemes that lead to complete functions are those of a program. -/
theorem Draft.program_of_follow {lexemes : List Lexeme} {functions : List (Node Unit)}
    (consistent : ∀ lexeme ∈ lexemes, lexeme.isConsistent)
    (path : ({} : Draft Unit).follow lexemes = some { functions }) :
    ∃ program : Scope Unit, program.isProgram ∧ lexemes = program.lexemes := by
  have shaped : (⟨.global, functions, ()⟩ : Scope Unit).isProgram = true :=
    (Draft.after?_wellShaped Draft.wellShaped_empty path).functions
  refine ⟨⟨.global, functions, ()⟩, shaped, ?_⟩
  have tokensConsistent : ∀ token ∈ lexemes.map Token.plain, token.isConsistent := by
    intro token member
    obtain ⟨lexeme, read, rfl⟩ := List.mem_map.mp member
    exact consistent lexeme read
  have read := Draft.after?_lexemes tokensConsistent path
  rw [List.map_map, show (fun token : Token Unit => token.toLexeme) ∘ Token.plain = id from rfl,
    List.map_id] at read
  rw [Scope.lexemes_program shaped]
  exact read.symm.trans (List.append_nil _)

/-- Lexemes that can be read are the beginning of a sentence. -/
theorem Draft.viable_of_follow {lexemes : List Lexeme} {draft : Draft Unit}
    (consistent : ∀ lexeme ∈ lexemes, lexeme.isConsistent)
    (path : ({} : Draft Unit).follow lexemes = some draft) : Viable lexemes := by
  obtain ⟨rest, functions, restConsistent, further⟩ := draft.closes
  obtain ⟨program, shaped, written⟩ := Draft.program_of_follow
    (fun lexeme member => (List.mem_append.mp member).elim (consistent lexeme)
      (restConsistent lexeme)) (Draft.follow_trans path further)
  exact ⟨program.lexemes ++ [Lexeme.eof], ⟨program, shaped, rfl⟩, rest ++ [Lexeme.eof],
    by rw [← written, List.append_assoc]⟩

/-- A lexeme that goes on with a sentence can be read. -/
theorem Draft.read_ne_none_of_viable {before : List Lexeme} {lexeme : Lexeme}
    {draft : Draft Unit} (path : ({} : Draft Unit).follow before = some draft)
    (viable : Viable (before ++ [lexeme])) : draft.read (Token.plain lexeme) ≠ none := by
  obtain ⟨sentence, ⟨program, shaped, rfl⟩, rest, split⟩ := viable
  rw [List.append_assoc, List.singleton_append] at split
  have whole := Draft.follow_program shaped
  rcases split_before_end split.symm with ⟨later, inside⟩ | ⟨rfl, rfl⟩
  · rw [inside, Draft.follow_append, path] at whole
    obtain ⟨next, step, _⟩ := Draft.after?_cons whole
    rw [step]
    exact Option.some_ne_none _
  · cases path.symm.trans whole
    exact Option.some_ne_none _

theorem Draft.viable_of_read {before : List Lexeme} {lexeme : Lexeme} {draft next : Draft Unit}
    (consistent : ∀ lexeme ∈ before, lexeme.isConsistent)
    (path : ({} : Draft Unit).follow before = some draft) (lexemeConsistent : lexeme.isConsistent)
    (step : draft.read (Token.plain lexeme) = some (.more next)) :
    Viable (before ++ [lexeme]) := by
  refine Draft.viable_of_follow ?_ (Draft.follow_trans path (Draft.follow_cons step rfl))
  intro other member
  rcases List.mem_append.mp member with early | late
  · exact consistent other early
  · rw [List.mem_singleton.mp late]
    exact lexemeConsistent

/-! ## What a fault asks for -/

/-- What a fault asks for after some lexemes goes on with a sentence. An unexpected token asks for
nothing: the lexemes before it are a complete program. -/
def GrammarFault.NamesContinuation (before : List Lexeme) : GrammarFault → Prop
  | .expected kind => Viable (before ++ [.ofKind kind])
  | .expectedIdentifier => ∀ name, Viable (before ++ [.ofName name])
  | .expectedType => Viable (before ++ [.ofKeyword .i32])
  | .expectedValue => ∀ value, Viable (before ++ [.ofInt value])
  | .expectedStatement =>
    Viable (before ++ [.ofKind .leftBrace]) ∧ Viable (before ++ [.ofKeyword .var])
  | .unexpectedToken => ∃ program : Scope Unit, program.isProgram ∧ before = program.lexemes

/-- The fault at a draft names what could have been read there. -/
theorem Draft.fault_namesContinuation {before : List Lexeme} {draft : Draft Unit}
    (consistent : ∀ lexeme ∈ before, lexeme.isConsistent)
    (path : ({} : Draft Unit).follow before = some draft) (lexeme : Lexeme) :
    (draft.place.fault lexeme).NamesContinuation before := by
  obtain ⟨functions, place⟩ := draft
  cases place with
  | function => exact Draft.program_of_follow consistent path
  | functionName loc => exact fun name => Draft.viable_of_read consistent path rfl rfl
  | leftParen loc name => exact Draft.viable_of_read consistent path rfl rfl
  | rightParen loc name => exact Draft.viable_of_read consistent path rfl rfl
  | returnType loc name => exact Draft.viable_of_read consistent path rfl rfl
  | body head => exact Draft.viable_of_read consistent path rfl rfl
  | within opened place =>
      cases place with
      | statement =>
          change (if lexeme.kind = .eof then _ else _ : GrammarFault).NamesContinuation before
          split
          · exact Draft.viable_of_read consistent path rfl rfl
          · exact ⟨Draft.viable_of_read consistent path rfl rfl,
              Draft.viable_of_read consistent path rfl rfl⟩
      | variableName loc => exact fun name => Draft.viable_of_read consistent path rfl rfl
      | variableType loc name => exact Draft.viable_of_read consistent path rfl rfl
      | equals head => exact Draft.viable_of_read consistent path rfl rfl
      | operand head operands => exact fun value => Draft.viable_of_read consistent path rfl rfl
      | operator head sum product => exact Draft.viable_of_read consistent path rfl rfl

/-- **Faults are found at the first token that goes on with no sentence.** A fault is located at one
of the tokens that are read, the end of input included. The tokens before it are the beginning of a
sentence, and with it they are not. What the fault asks for would have gone on with a sentence. -/
theorem Scope.parse_error_at_first_unviable (tokens : List (Token Span))
    (fault : Located Span GrammarFault) (consistent : Token.Consistent tokens)
    (failed : Scope.parse tokens = .error fault) :
    ∃ (k : Nat) (token : Token Span), (Token.terminate tokens)[k]? = some token ∧
      fault.loc = token.loc ∧
      Viable (((Token.terminate tokens).take k).map (·.toLexeme)) ∧
      ¬ Viable (((Token.terminate tokens).take (k + 1)).map (·.toLexeme)) ∧
      fault.cause.NamesContinuation (((Token.terminate tokens).take k).map (·.toLexeme)) := by
  obtain ⟨before, eof, terminated⟩ := consistent.terminated
  rcases terminated.parse_cases with
    ⟨functions, _, result⟩ | ⟨read, token, later, reached, split, path, stuck, result⟩
  · cases failed.symm.trans result
  · cases failed.symm.trans result
    have readConsistent : ∀ lexeme ∈ read.map (·.toLexeme), lexeme.isConsistent := by
      intro lexeme member
      obtain ⟨other, early, rfl⟩ := List.mem_map.mp member
      have present : other ∈ before ++ [eof] := split ▸ List.mem_append_left _ early
      rcases List.mem_append.mp present with inside | final
      · exact terminated.consistent other inside
      · rw [List.mem_singleton.mp final, terminated.eofLexeme]
        rfl
    have plainPath : ({} : Draft Unit).follow (read.map (·.toLexeme)) =
        some (reached.map fun _ => ()) := by
      rw [← Draft.after?_unit, path]
      rfl
    have plainStuck : (reached.map fun _ => ()).read (Token.plain token.toLexeme) = none := by
      rw [← Token.map_unit, Draft.read_map keepsStretch_unit, stuck]
      rfl
    rw [terminated.terminate, split]
    refine ⟨read.length, token, ?_, rfl, ?_, ?_, ?_⟩
    · rw [List.getElem?_append_right (Nat.le_refl _), Nat.sub_self]
      rfl
    · rw [List.take_left]
      exact Draft.viable_of_follow readConsistent plainPath
    · rw [List.take_length_add_append, List.map_append]
      exact fun viable => Draft.read_ne_none_of_viable plainPath viable plainStuck
    · rw [List.take_left, ← ProgramPlace.fault_map fun _ => ()]
      exact Draft.fault_namesContinuation readConsistent plainPath token.toLexeme

/-- A function that lacks its closing brace, as it is written. -/
def Token.sampleUnclosed : List (Token Span) :=
  Token.inRow [.ofKeyword .fn, .ofName "f", .ofKind .leftParen, .ofKind .rightParen,
    .ofKeyword .i32, .ofKind .leftBrace]

/-- The fault of an unclosed block: at the end of input, a closing brace is asked for. -/
def Token.sampleFault : Located Span GrammarFault where
  loc := (Token.endAfter Token.sampleUnclosed).loc
  cause := .expected .rightBrace

/-- The fault of an unclosed block is found at the end of input, and no earlier. -/
theorem Scope.parse_error_sampleUnclosed :
    Token.Consistent Token.sampleUnclosed ∧
      Scope.parse Token.sampleUnclosed = .error Token.sampleFault ∧
      ∃ (k : Nat) (token : Token Span),
        (Token.terminate Token.sampleUnclosed)[k]? = some token ∧
        Token.sampleFault.loc = token.loc ∧
        Viable (((Token.terminate Token.sampleUnclosed).take k).map (·.toLexeme)) ∧
        ¬ Viable (((Token.terminate Token.sampleUnclosed).take (k + 1)).map (·.toLexeme)) ∧
        Token.sampleFault.cause.NamesContinuation
          (((Token.terminate Token.sampleUnclosed).take k).map (·.toLexeme)) := by
  have consistent : Token.Consistent Token.sampleUnclosed := by decide
  have failed : Scope.parse Token.sampleUnclosed = .error Token.sampleFault := rfl
  exact ⟨consistent, failed,
    Scope.parse_error_at_first_unviable Token.sampleUnclosed Token.sampleFault consistent failed⟩

end NcLang
