import NcLang.Proofs.Relocation

/-! # Runs over a list of tokens

`Draft.after?` is the draft that a list of tokens leads to. Every run reads some tokens in this way
and then ends in one of three ways (`Draft.run_cases`): a token completes the program, a token
cannot stand where it does, or there are no tokens left.

A draft accounts for the tokens it was read from. Its lexemes are theirs (`Draft.after?_lexemes`),
and its parts have the shapes that the grammar gives (`Draft.after?_wellShaped`).
-/

namespace NcLang

variable {α β : Type}

/-! ## The draft after some tokens -/

section After

variable [Stretch α] [Stretch β]

/-- The draft after some tokens, if each can stand where it does and none completes the program. -/
def Draft.after? (draft : Draft α) : List (Token α) → Option (Draft α)
  | [] => some draft
  | token :: rest =>
    match draft.read token with
    | some (.more next) => next.after? rest
    | _ => none

/-- Tokens are read one part after the other. -/
theorem Draft.after?_append (draft : Draft α) (first second : List (Token α)) :
    draft.after? (first ++ second) = (draft.after? first).bind (·.after? second) := by
  induction first generalizing draft with
  | nil => rfl
  | cons token first ih =>
      rw [List.cons_append, Draft.after?, Draft.after?]
      split
      · exact ih _
      · rfl

theorem Draft.after?_cons {draft reached : Draft α} {token : Token α} {rest : List (Token α)}
    (path : draft.after? (token :: rest) = some reached) :
    ∃ next, draft.read token = some (.more next) ∧ next.after? rest = some reached := by
  unfold Draft.after? at path
  split at path
  · rename_i next step
    exact ⟨next, step, path⟩
  · cases path

/-- Tokens at other locations lead to the same draft at these locations. -/
theorem Draft.after?_map {f : α → β} (keeps : KeepsStretch f) (draft : Draft α)
    (tokens : List (Token α)) :
    (draft.map f).after? (tokens.map (Token.map f)) = (draft.after? tokens).map (Draft.map f) := by
  induction tokens generalizing draft with
  | nil => rfl
  | cons token tokens ih =>
      rw [List.map_cons, Draft.after?, Draft.after?, Draft.read_map keeps]
      cases draft.read token with
      | none => rfl
      | some reading =>
          cases reading with
          | more next => exact ih next
          | complete root => rfl

/-- A run does the same at other locations. -/
theorem Draft.run_map {f : α → β} (keeps : KeepsStretch f) (last : Token α) (draft : Draft α)
    (tokens : List (Token α)) :
    (draft.map f).run (last.map f) (tokens.map (Token.map f)) =
      Located.mapResult f (Scope.map f) (draft.run last tokens) := by
  induction tokens generalizing draft with
  | nil =>
      rw [List.map_nil, Draft.run, Draft.run]
      simp only [Draft.map, ProgramPlace.fault_map]
      rfl
  | cons token tokens ih =>
      rw [List.map_cons, Draft.run, Draft.run, Draft.read_map keeps]
      cases draft.read token with
      | none =>
          simp only [Option.map_none, Draft.map, ProgramPlace.fault_map]
          rfl
      | some reading =>
          cases reading with
          | more next => exact ih next
          | complete root => rfl

/-- A run goes on from the draft that the tokens so far lead to. -/
theorem Draft.run_append {draft reached : Draft α} {before : List (Token α)} (last : Token α)
    (rest : List (Token α)) (path : draft.after? before = some reached) :
    draft.run last (before ++ rest) = reached.run last rest := by
  induction before generalizing draft with
  | nil =>
      cases path
      rfl
  | cons token before ih =>
      obtain ⟨next, step, path⟩ := Draft.after?_cons path
      rw [List.cons_append, Draft.run, step]
      exact ih path

/-- The ways in which a run ends. -/
theorem Draft.run_cases (draft : Draft α) (last : Token α) (tokens : List (Token α)) :
    (∃ reached, draft.after? tokens = some reached ∧ draft.run last tokens =
        .error { loc := last.loc, cause := reached.place.fault last.toLexeme }) ∨
      ∃ before token after reached, tokens = before ++ token :: after ∧
        draft.after? before = some reached ∧
        ((∃ root, reached.read token = some (.complete root) ∧ draft.run last tokens = .ok root) ∨
          (reached.read token = none ∧ draft.run last tokens =
            .error { loc := token.loc, cause := reached.place.fault token.toLexeme })) := by
  induction tokens generalizing draft with
  | nil => exact .inl ⟨draft, rfl, rfl⟩
  | cons token tokens ih =>
      cases step : draft.read token with
      | none =>
          refine .inr ⟨[], token, tokens, draft, rfl, rfl, .inr ⟨step, ?_⟩⟩
          rw [Draft.run, step]
      | some reading =>
          cases reading with
          | complete root =>
              refine .inr ⟨[], token, tokens, draft, rfl, rfl, .inl ⟨root, step, ?_⟩⟩
              rw [Draft.run, step]
          | more next =>
              have goesOn : draft.run last (token :: tokens) = next.run last tokens := by
                rw [Draft.run, step]
              have pathEq (rest : List (Token α)) :
                  draft.after? (token :: rest) = next.after? rest := by
                rw [Draft.after?, step]
              rw [goesOn, pathEq]
              rcases ih next with atEnd | ⟨before, other, after, reached, rfl, path, outcome⟩
              · exact .inl atEnd
              · exact .inr ⟨token :: before, other, after, reached, rfl,
                  (pathEq before).trans path, outcome⟩

end After

theorem split_before_end {before read later : List α} {final item : α}
    (split : before ++ [final] = read ++ item :: later) :
    (∃ rest, before = read ++ item :: rest) ∨ read = before ∧ item = final := by
  rcases List.eq_nil_or_concat later with rfl | ⟨later, last, rfl⟩
  · obtain ⟨same, ending⟩ := List.append_inj' split rfl
    cases ending
    exact .inr ⟨same.symm, rfl⟩
  · rw [List.concat_eq_append, ← List.cons_append, ← List.append_assoc] at split
    exact .inl ⟨later, (List.append_inj' split rfl).1⟩

/-! ## What one token can do -/

section Step

variable [Stretch α]

/-- The steps that a token can take within a block. -/
inductive BlockPlace.Step (token : Token α) : BlockPlace α → BlockStep α → Prop
  | closeBlock (kind : token.kind = .rightBrace) :
      Step token .statement (.closeBlock token.loc)
  | openBlock (kind : token.kind = .leftBrace) :
      Step token .statement (.openBlock token.loc)
  | keyword (keyword : token.isKeyword .var) :
      Step token .statement (.goOn (.variableName token.loc))
  | name {loc : α} {name : String} (named : token.name? = some name) :
      Step token (.variableName loc) (.goOn (.variableType loc name))
  | type {loc : α} {name : String} (keyword : token.isKeyword .i32) :
      Step token (.variableType loc name) (.goOn (.equals { loc, name, type := .i32 }))
  | equals {head : VariableHead α} (kind : token.kind = .equals) :
      Step token (.equals head) (.goOn (.operand head {}))
  | operand {head : VariableHead α} {before : Operands α} {value : Int64}
      (counted : token.int? = some value) :
      Step token (.operand head before) (.goOn (.operator head before.sum
        (.join .mul before.product (.literal value token.loc))))
  | star {head : VariableHead α} {sum : Option (Node α)} {product : Node α}
      (kind : token.kind = .star) :
      Step token (.operator head sum product)
        (.goOn (.operand head { sum, product := some product }))
  | plus {head : VariableHead α} {sum : Option (Node α)} {product : Node α}
      (kind : token.kind = .plus) :
      Step token (.operator head sum product)
        (.goOn (.operand head { sum := some (.join .add sum product) }))
  | semicolon {head : VariableHead α} {sum : Option (Node α)} {product : Node α}
      (kind : token.kind = .semicolon) :
      Step token (.operator head sum product)
        (.addStatement (head.complete (.join .add sum product) token.loc))

/-- The steps that a token can take within a program that goes on. -/
inductive Draft.Step (functions : List (Node α)) (token : Token α) :
    ProgramPlace α → Draft α → Prop
  | keyword (keyword : token.isKeyword .fn) :
      Step functions token .function { functions, place := .functionName token.loc }
  | name {loc : α} {name : String} (named : token.name? = some name) :
      Step functions token (.functionName loc) { functions, place := .leftParen loc name }
  | leftParen {loc : α} {name : String} (kind : token.kind = .leftParen) :
      Step functions token (.leftParen loc name) { functions, place := .rightParen loc name }
  | rightParen {loc : α} {name : String} (kind : token.kind = .rightParen) :
      Step functions token (.rightParen loc name) { functions, place := .returnType loc name }
  | type {loc : α} {name : String} (keyword : token.isKeyword .i32) :
      Step functions token (.returnType loc name)
        { functions, place := .body { loc, name, returnType := .i32 } }
  | body {head : FunctionHead α} (kind : token.kind = .leftBrace) :
      Step functions token (.body head)
        { functions,
          place := .within { head, outer := [], inner := { loc := token.loc } } .statement }
  | within {opened : OpenFunction α} {place : BlockPlace α} {step : BlockStep α}
      (taken : place.Step token step) :
      Step functions token (.within opened place) (Draft.afterStep functions opened step)

/-- A token that can stand at a place within a block takes one of its steps. -/
theorem BlockPlace.step_of_read {place : BlockPlace α} {token : Token α} {step : BlockStep α}
    (read : place.read token = some step) : place.Step token step := by
  cases place with
  | statement =>
      dsimp only [BlockPlace.read] at read
      split at read
      · cases read
        exact .closeBlock ‹_›
      · cases read
      · cases read
        exact .openBlock ‹_›
      · split at read
        · cases read
          exact .keyword ‹_›
        · cases read
  | variableName loc =>
      obtain ⟨name, named, rfl⟩ := Option.map_eq_some_iff.mp read
      exact .name named
  | variableType loc name =>
      obtain ⟨type, typed, rfl⟩ := Option.map_eq_some_iff.mp read
      obtain ⟨keyword, rfl⟩ := Lexeme.type?_eq_some_iff.mp typed
      exact .type keyword
  | equals head =>
      dsimp only [BlockPlace.read] at read
      split at read
      · cases read
        exact .equals ‹_›
      · cases read
  | operand head before =>
      obtain ⟨value, counted, rfl⟩ := Option.map_eq_some_iff.mp read
      exact .operand counted
  | operator head sum product =>
      dsimp only [BlockPlace.read] at read
      split at read
      · cases read
        exact .star ‹_›
      · cases read
        exact .plus ‹_›
      · cases read
        exact .semicolon ‹_›
      · cases read

/-- A token that can stand at a place within a program takes one of its steps, unless it completes
the program. -/
theorem Draft.step_of_read {draft next : Draft α} {token : Token α}
    (read : draft.read token = some (.more next)) :
    Draft.Step draft.functions token draft.place next := by
  obtain ⟨functions, place⟩ := draft
  cases place with
  | function =>
      dsimp only [Draft.read] at read
      split at read
      · cases read
        exact .keyword ‹_›
      · split at read <;> cases read
  | functionName loc =>
      obtain ⟨name, named, equal⟩ := Option.map_eq_some_iff.mp read
      cases equal
      exact .name named
  | leftParen loc name =>
      dsimp only [Draft.read] at read
      split at read
      · cases read
        exact .leftParen ‹_›
      · cases read
  | rightParen loc name =>
      dsimp only [Draft.read] at read
      split at read
      · cases read
        exact .rightParen ‹_›
      · cases read
  | returnType loc name =>
      obtain ⟨type, typed, equal⟩ := Option.map_eq_some_iff.mp read
      obtain ⟨keyword, rfl⟩ := Lexeme.type?_eq_some_iff.mp typed
      cases equal
      exact .type keyword
  | body head =>
      dsimp only [Draft.read] at read
      split at read
      · cases read
        exact .body ‹_›
      · cases read
  | within opened place =>
      obtain ⟨step, taken, equal⟩ := Option.map_eq_some_iff.mp read
      cases equal
      exact .within (BlockPlace.step_of_read taken)

/-- Only the end of input completes a program, and only between functions. -/
theorem Draft.read_complete {draft : Draft α} {token : Token α} {root : Scope α}
    (read : draft.read token = some (.complete root)) :
    draft.place = .function ∧ token.kind = .eof ∧ root = draft.complete token.loc := by
  obtain ⟨functions, place⟩ := draft
  cases place with
  | function =>
      dsimp only [Draft.read] at read
      split at read
      · cases read
      · split at read
        · cases read
          exact ⟨rfl, ‹_›, rfl⟩
        · cases read
  | functionName loc =>
      obtain ⟨name, _, equal⟩ := Option.map_eq_some_iff.mp read
      cases equal
  | returnType loc name =>
      obtain ⟨type, _, equal⟩ := Option.map_eq_some_iff.mp read
      cases equal
  | within opened place =>
      obtain ⟨step, _, equal⟩ := Option.map_eq_some_iff.mp read
      cases equal
  | _ =>
      dsimp only [Draft.read] at read
      split at read <;> cases read

end Step

/-! ## The lexemes of a draft -/

/-- The lexemes of a left operand and the operator after it, if there is one. -/
def Node.lexemesBefore (op : BinaryOp) : Option (Node α) → List Lexeme
  | some lhs => lhs.lexemes ++ [Lexeme.ofKind op.kind]
  | none => []

/-- The lexemes of the beginning of a variable definition. -/
def VariableHead.lexemes (head : VariableHead α) : List Lexeme :=
  [Lexeme.ofKeyword .var, Lexeme.ofName head.name, Lexeme.ofKeyword .i32]

/-- The lexemes between the last complete statement and a place within a block. -/
def BlockPlace.lexemes : BlockPlace α → List Lexeme
  | .statement => []
  | .variableName _ => [Lexeme.ofKeyword .var]
  | .variableType _ name => [Lexeme.ofKeyword .var, Lexeme.ofName name]
  | .equals head => head.lexemes
  | .operand head before =>
    head.lexemes ++ Lexeme.ofKind .equals ::
      (Node.lexemesBefore .add before.sum ++ Node.lexemesBefore .mul before.product)
  | .operator head sum product =>
    head.lexemes ++ Lexeme.ofKind .equals :: (Node.lexemesBefore .add sum ++ product.lexemes)

/-- The lexemes of a block that breaks off. -/
def OpenBlock.lexemes (block : OpenBlock α) : List Lexeme :=
  Lexeme.ofKind .leftBrace :: block.statements.flatMap Node.lexemes

/-- The lexemes of the beginning of a function. -/
def FunctionHead.lexemes (head : FunctionHead α) : List Lexeme :=
  [Lexeme.ofKeyword .fn, Lexeme.ofName head.name, Lexeme.ofKind .leftParen,
    Lexeme.ofKind .rightParen, Lexeme.ofKeyword .i32]

/-- The lexemes of an open function up to its last complete statement. -/
def OpenFunction.lexemes (opened : OpenFunction α) : List Lexeme :=
  opened.head.lexemes ++ opened.outer.reverse.flatMap OpenBlock.lexemes ++ opened.inner.lexemes

/-- The lexemes between the last complete function and a place within a program. -/
def ProgramPlace.lexemes : ProgramPlace α → List Lexeme
  | .function => []
  | .functionName _ => [Lexeme.ofKeyword .fn]
  | .leftParen _ name => [Lexeme.ofKeyword .fn, Lexeme.ofName name]
  | .rightParen _ name =>
    [Lexeme.ofKeyword .fn, Lexeme.ofName name, Lexeme.ofKind .leftParen]
  | .returnType _ name =>
    [Lexeme.ofKeyword .fn, Lexeme.ofName name, Lexeme.ofKind .leftParen,
      Lexeme.ofKind .rightParen]
  | .body head => head.lexemes
  | .within opened place => opened.lexemes ++ place.lexemes

/-- The lexemes that a draft was read from. -/
def Draft.lexemes (draft : Draft α) : List Lexeme :=
  draft.functions.flatMap Node.lexemes ++ draft.place.lexemes

/-- The lexemes that a step adds to those of the open function. -/
def BlockStep.lexemes : BlockStep α → List Lexeme
  | .goOn place => place.lexemes
  | .addStatement statement => statement.lexemes
  | .openBlock _ => [Lexeme.ofKind .leftBrace]
  | .closeBlock _ => [Lexeme.ofKind .rightBrace]

section Lexemes

variable [Stretch α]

theorem Node.lexemes_join (op : BinaryOp) (lhs : Option (Node α)) (rhs : Node α) :
    (Node.join op lhs rhs).lexemes = Node.lexemesBefore op lhs ++ rhs.lexemes := by
  cases lhs with
  | none => rfl
  | some lhs => simp only [Node.join, Node.lexemes, Node.lexemesBefore, List.append_assoc,
      List.cons_append, List.nil_append]

/-- A step within a block accounts for one more lexeme. -/
theorem BlockPlace.Step.lexemes {place : BlockPlace α} {token : Token α} {step : BlockStep α}
    (consistent : token.isConsistent) (taken : place.Step token step) :
    step.lexemes = place.lexemes ++ [token.toLexeme] := by
  cases taken with
  | closeBlock kind =>
      rw [Lexeme.eq_ofKind consistent kind rfl]
      rfl
  | openBlock kind =>
      rw [Lexeme.eq_ofKind consistent kind rfl]
      rfl
  | keyword keyword =>
      rw [Lexeme.eq_ofKeyword consistent keyword]
      rfl
  | name named =>
      rw [Lexeme.eq_ofName named]
      rfl
  | type keyword =>
      rw [Lexeme.eq_ofKeyword consistent keyword]
      rfl
  | equals kind =>
      rw [Lexeme.eq_ofKind consistent kind rfl]
      rfl
  | operand counted =>
      rw [Lexeme.eq_ofInt counted]
      simp only [BlockStep.lexemes, BlockPlace.lexemes, Node.lexemes_join, Node.lexemes,
        List.append_assoc, List.cons_append]
  | star kind =>
      rw [Lexeme.eq_ofKind consistent kind rfl]
      simp only [BlockStep.lexemes, BlockPlace.lexemes, Node.lexemesBefore, BinaryOp.kind,
        List.append_assoc, List.cons_append]
  | plus kind =>
      rw [Lexeme.eq_ofKind consistent kind rfl]
      simp only [BlockStep.lexemes, BlockPlace.lexemes, Node.lexemesBefore, Node.lexemes_join,
        BinaryOp.kind, List.append_assoc, List.cons_append, List.append_nil]
  | semicolon kind =>
      rw [Lexeme.eq_ofKind consistent kind rfl]
      simp only [BlockStep.lexemes, BlockPlace.lexemes, VariableHead.complete, Node.lexemes,
        VariableHead.lexemes, Node.lexemes_join, List.append_assoc, List.cons_append,
        List.nil_append]

/-- After a step, a draft has the lexemes of what came before and those of the step. -/
theorem Draft.lexemes_afterStep (functions : List (Node α)) (opened : OpenFunction α)
    (step : BlockStep α) :
    (Draft.afterStep functions opened step).lexemes =
      functions.flatMap Node.lexemes ++ (opened.lexemes ++ step.lexemes) := by
  obtain ⟨head, outer, inner⟩ := opened
  cases step with
  | goOn place => rfl
  | addStatement statement =>
      simp only [Draft.afterStep, Draft.lexemes, ProgramPlace.lexemes, OpenFunction.lexemes,
        OpenBlock.lexemes, OpenBlock.push, BlockPlace.lexemes, BlockStep.lexemes,
        List.flatMap_append, List.flatMap_cons, List.flatMap_nil, List.append_nil,
        List.append_assoc, List.cons_append]
  | openBlock brace =>
      simp only [Draft.afterStep, Draft.lexemes, ProgramPlace.lexemes, OpenFunction.lexemes,
        OpenBlock.lexemes, BlockPlace.lexemes, BlockStep.lexemes, List.reverse_cons,
        List.flatMap_append, List.flatMap_cons, List.flatMap_nil, List.append_nil,
        List.append_assoc]
  | closeBlock brace =>
      cases outer with
      | nil =>
          simp only [Draft.afterStep, Draft.lexemes, ProgramPlace.lexemes, OpenFunction.lexemes,
            OpenBlock.lexemes, OpenBlock.complete, FunctionHead.complete, FunctionHead.lexemes,
            BlockStep.lexemes, Node.lexemes, Scope.lexemes, Scope.lexemesOfAll_eq,
            List.flatMap_append, List.flatMap_cons, List.flatMap_nil, List.reverse_nil,
            List.append_nil, List.cons_append, List.nil_append]
      | cons block outer =>
          simp only [Draft.afterStep, Draft.lexemes, ProgramPlace.lexemes, OpenFunction.lexemes,
            OpenBlock.lexemes, OpenBlock.complete, OpenBlock.push, BlockPlace.lexemes,
            BlockStep.lexemes, Node.lexemes, Scope.lexemes, Scope.lexemesOfAll_eq,
            List.reverse_cons, List.flatMap_append, List.flatMap_cons, List.flatMap_nil,
            List.append_nil, List.append_assoc, List.cons_append]

/-- A draft accounts for one more lexeme after each token. -/
theorem Draft.Step.lexemes {functions : List (Node α)} {place : ProgramPlace α} {next : Draft α}
    {token : Token α} (consistent : token.isConsistent)
    (taken : Draft.Step functions token place next) :
    next.lexemes = ({ functions, place } : Draft α).lexemes ++ [token.toLexeme] := by
  change next.lexemes = (functions.flatMap Node.lexemes ++ place.lexemes) ++ [token.toLexeme]
  rw [List.append_assoc]
  cases taken with
  | keyword keyword =>
      rw [Lexeme.eq_ofKeyword consistent keyword]
      rfl
  | name named =>
      rw [Lexeme.eq_ofName named]
      rfl
  | leftParen kind =>
      rw [Lexeme.eq_ofKind consistent kind rfl]
      rfl
  | rightParen kind =>
      rw [Lexeme.eq_ofKind consistent kind rfl]
      rfl
  | type keyword =>
      rw [Lexeme.eq_ofKeyword consistent keyword]
      rfl
  | body kind =>
      rw [Lexeme.eq_ofKind consistent kind rfl]
      rfl
  | within taken =>
      rw [Draft.lexemes_afterStep, taken.lexemes consistent, ProgramPlace.lexemes,
        List.append_assoc]

/-- The lexemes of a draft are those of the tokens it was read from. -/
theorem Draft.after?_lexemes {draft reached : Draft α} {tokens : List (Token α)}
    (consistent : ∀ token ∈ tokens, token.isConsistent)
    (path : draft.after? tokens = some reached) :
    reached.lexemes = draft.lexemes ++ tokens.map (·.toLexeme) := by
  induction tokens generalizing draft with
  | nil =>
      cases path
      rw [List.map_nil, List.append_nil]
  | cons token tokens ih =>
      obtain ⟨next, step, path⟩ := Draft.after?_cons path
      rw [ih (fun other member => consistent other (List.mem_cons_of_mem token member)) path,
        (Draft.step_of_read step).lexemes (consistent token List.mem_cons_self), List.append_assoc,
        List.singleton_append, List.map_cons]

end Lexemes

/-! ## The shape of a draft -/

/-- Whether an expression that may be missing has a shape. -/
def Node.IfPresent (shape : Node α → Bool) (node : Option (Node α)) : Prop :=
  node.all shape

/-- What is put together at a place within a block has the shape that the grammar gives. -/
def BlockPlace.WellShaped : BlockPlace α → Prop
  | .statement | .variableName _ | .variableType .. => True
  | .equals head => head.type = .i32
  | .operand head before =>
    head.type = .i32 ∧ Node.IfPresent Node.isExpression before.sum ∧
      Node.IfPresent Node.isTerm before.product
  | .operator head sum product =>
    head.type = .i32 ∧ Node.IfPresent Node.isExpression sum ∧ product.isTerm

/-- Whether what a step adds has the shape that the grammar gives. -/
def BlockStep.WellShaped : BlockStep α → Prop
  | .goOn place => place.WellShaped
  | .addStatement statement => statement.isStatement
  | .openBlock _ | .closeBlock _ => True

/-- The statements of all open blocks are statements, and the function returns an `i32`. -/
structure OpenFunction.WellShaped (opened : OpenFunction α) : Prop where
  returnType : opened.head.returnType = .i32
  inner : opened.inner.statements.all Node.isStatement
  outer : ∀ block ∈ opened.outer, block.statements.all Node.isStatement

/-- Whether all that led to a place has the shape that the grammar gives. -/
def ProgramPlace.WellShaped : ProgramPlace α → Prop
  | .body head => head.returnType = .i32
  | .within opened place => opened.WellShaped ∧ place.WellShaped
  | _ => True

/-- All that was put together so far has the shape that the grammar gives. -/
structure Draft.WellShaped (draft : Draft α) : Prop where
  functions : draft.functions.all Node.isFunction
  place : draft.place.WellShaped

theorem Draft.wellShaped_empty : ({} : Draft α).WellShaped where
  functions := rfl
  place := trivial

section Shapes

variable [Stretch α]

theorem Node.isTerm_join {lhs : Option (Node α)} (value : Int64) (loc : α)
    (shaped : Node.IfPresent Node.isTerm lhs) :
    (Node.join .mul lhs (.literal value loc)).isTerm := by
  cases lhs with
  | none => rfl
  | some lhs => exact shaped

omit [Stretch α] in
theorem Node.isExpression_of_isTerm {node : Node α} (term : node.isTerm) : node.isExpression := by
  cases node with
  | binary op lhs rhs loc =>
      cases op with
      | add => cases term
      | mul => exact term
  | _ => exact term

theorem Node.isExpression_join {lhs : Option (Node α)} {rhs : Node α}
    (shaped : Node.IfPresent Node.isExpression lhs) (term : rhs.isTerm) :
    (Node.join .add lhs rhs).isExpression := by
  cases lhs with
  | none => exact Node.isExpression_of_isTerm term
  | some lhs =>
      rw [Node.join, Node.isExpression, show lhs.isExpression = true from shaped, term]
      rfl

/-- A step within a block keeps the shapes. -/
theorem BlockPlace.Step.wellShaped {place : BlockPlace α} {token : Token α} {step : BlockStep α}
    (taken : place.Step token step) (shaped : place.WellShaped) : step.WellShaped := by
  cases taken with
  | closeBlock => trivial
  | openBlock => trivial
  | keyword => trivial
  | name => trivial
  | type => exact rfl
  | equals => exact ⟨shaped, rfl, rfl⟩
  | operand => exact ⟨shaped.1, shaped.2.1, Node.isTerm_join _ _ shaped.2.2⟩
  | star => exact shaped
  | plus =>
      obtain ⟨type, sum, product⟩ := shaped
      exact ⟨type, Node.isExpression_join sum product, rfl⟩
  | semicolon =>
      obtain ⟨type, sum, product⟩ := shaped
      change (decide _ && _) = true
      rw [type, Node.isExpression_join sum product]
      rfl

theorem OpenBlock.isBlock_complete {block : OpenBlock α} (brace : α)
    (statements : block.statements.all Node.isStatement) : (block.complete brace).isBlock := by
  change (true && Scope.areStatements block.statements) = true
  rw [Scope.areStatements_eq, statements]
  rfl

/-- A step keeps a draft in shape, also where it closes a block or the function. -/
theorem Draft.wellShaped_afterStep {functions : List (Node α)} {opened : OpenFunction α}
    {step : BlockStep α} (complete : functions.all Node.isFunction) (around : opened.WellShaped)
    (shaped : step.WellShaped) : (Draft.afterStep functions opened step).WellShaped := by
  obtain ⟨head, outer, inner⟩ := opened
  obtain ⟨returnType, innerShaped, outerShaped⟩ := around
  cases step with
  | goOn place => exact ⟨complete, ⟨returnType, innerShaped, outerShaped⟩, shaped⟩
  | addStatement statement =>
      refine ⟨complete, ⟨returnType, ?_, outerShaped⟩, trivial⟩
      change (inner.statements ++ [statement]).all Node.isStatement = true
      have here : statement.isStatement = true := shaped
      rw [List.all_append, innerShaped, List.all_cons, here]
      rfl
  | openBlock brace =>
      refine ⟨complete, ⟨returnType, rfl, ?_⟩, trivial⟩
      intro block member
      rcases List.mem_cons.mp member with rfl | member
      · exact innerShaped
      · exact outerShaped block member
  | closeBlock brace =>
      have scope := OpenBlock.isBlock_complete brace innerShaped
      cases outer with
      | nil =>
          refine ⟨?_, trivial⟩
          change (functions ++ [head.complete (inner.complete brace)]).all Node.isFunction = true
          rw [List.all_append, complete, List.all_cons, FunctionHead.complete, Node.isFunction,
            show head.returnType = .i32 from returnType, scope]
          rfl
      | cons block outer =>
          refine ⟨complete, ⟨returnType, ?_, fun other member => outerShaped other
            (List.mem_cons_of_mem block member)⟩, trivial⟩
          change (block.statements ++ [Node.scope (inner.complete brace)]).all
            Node.isStatement = true
          rw [List.all_append, outerShaped block List.mem_cons_self, List.all_cons,
            Node.isStatement, scope]
          rfl

/-- A token keeps the shapes. -/
theorem Draft.Step.wellShaped {draft next : Draft α} {token : Token α}
    (taken : Draft.Step draft.functions token draft.place next) (shaped : draft.WellShaped) :
    next.WellShaped := by
  obtain ⟨functions, place⟩ := draft
  obtain ⟨complete, around⟩ := shaped
  cases taken with
  | type => exact ⟨complete, rfl⟩
  | body => exact ⟨complete, ⟨around, rfl, fun _ absent => nomatch absent⟩, trivial⟩
  | within taken =>
      exact Draft.wellShaped_afterStep complete around.1 (taken.wellShaped around.2)
  | _ => exact ⟨complete, trivial⟩

/-- What is put together while tokens are read has the shape that the grammar gives, whatever the
tokens are. -/
theorem Draft.after?_wellShaped {draft reached : Draft α} {tokens : List (Token α)}
    (shaped : draft.WellShaped) (path : draft.after? tokens = some reached) :
    reached.WellShaped := by
  induction tokens generalizing draft with
  | nil =>
      cases path
      exact shaped
  | cons token tokens ih =>
      obtain ⟨next, step, path⟩ := Draft.after?_cons path
      exact ih ((Draft.step_of_read step).wellShaped shaped) path

end Shapes

end NcLang
