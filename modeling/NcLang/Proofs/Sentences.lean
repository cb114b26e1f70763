import NcLang.Proofs.DraftRun

/-! # Reading the lexemes of a program

The lexemes of a program can be read one after the other, and lead to the draft that consists of the
program's functions (`Draft.follow_program`). Nothing here has a location.
-/

namespace NcLang

/-- The draft after some lexemes. -/
def Draft.follow (draft : Draft Unit) (lexemes : List Lexeme) : Option (Draft Unit) :=
  draft.after? (lexemes.map Token.plain)

/-- Lexemes are followed one part after the other. -/
theorem Draft.follow_append (draft : Draft Unit) (first second : List Lexeme) :
    draft.follow (first ++ second) = (draft.follow first).bind (·.follow second) := by
  rw [Draft.follow, List.map_append, Draft.after?_append]
  rfl

theorem Draft.follow_trans {draft middle reached : Draft Unit} {first second : List Lexeme}
    (path : draft.follow first = some middle) (further : middle.follow second = some reached) :
    draft.follow (first ++ second) = some reached := by
  rw [Draft.follow_append, path]
  exact further

theorem Draft.follow_cons {draft middle reached : Draft Unit} {lexeme : Lexeme}
    {rest : List Lexeme} (step : draft.read (Token.plain lexeme) = some (.more middle))
    (further : middle.follow rest = some reached) :
    draft.follow (lexeme :: rest) = some reached := by
  rw [Draft.follow, List.map_cons, Draft.after?, step]
  exact further

/-! ## Expressions -/

section Function

variable (functions : List (Node Unit)) (opened : OpenFunction Unit)

/-- The draft that stands at a place within a function. -/
abbrev Draft.within (place : BlockPlace Unit) : Draft Unit where
  functions := functions
  place := .within opened place

/-- The lexemes of a term lead from where an operand is due to where an operator may follow. -/
theorem Draft.follow_term (head : VariableHead Unit) (sum : Option (Node Unit))
    {term : Node Unit} (shaped : term.isTerm) :
    (Draft.within functions opened (.operand head { sum })).follow term.lexemes =
      some (Draft.within functions opened (.operator head sum term)) := by
  induction term using Node.isTerm.induct with
  | case1 value loc => rfl
  | case2 lhs value _ loc ih =>
      rw [Node.lexemes]
      refine Draft.follow_trans (ih shaped) ?_
      exact Draft.follow_cons rfl (Draft.follow_cons rfl rfl)
  | case3 node notLiteral notMul =>
      rw [Node.isTerm] at shaped
      · cases shaped
      · exact notLiteral
      · exact notMul

/-- The lexemes of an expression are read up to an operator. -/
theorem Draft.follow_expression (head : VariableHead Unit) {value : Node Unit}
    (shaped : value.isExpression) :
    ∃ sum product, Node.join .add sum product = value ∧
      (Draft.within functions opened (.operand head {})).follow value.lexemes =
        some (Draft.within functions opened (.operator head sum product)) := by
  induction value using Node.isExpression.induct with
  | case1 lhs rhs loc ih =>
      rw [Node.isExpression, Bool.and_eq_true] at shaped
      obtain ⟨sum, product, joined, path⟩ := ih shaped.1
      refine ⟨some lhs, rhs, rfl, ?_⟩
      rw [Node.lexemes]
      refine Draft.follow_trans path (Draft.follow_cons rfl ?_)
      rw [joined]
      exact Draft.follow_term functions opened head (some lhs) shaped.2
  | case2 node notAdd =>
      rw [Node.isExpression] at shaped
      · exact ⟨none, node, rfl, Draft.follow_term functions opened head none shaped⟩
      · exact notAdd

end Function

/-! ## Statements -/

mutual

/-- The lexemes of a statement add it to the innermost block. -/
theorem Draft.follow_statement (functions : List (Node Unit)) (head : FunctionHead Unit) :
    ∀ (node : Node Unit) (outer : List (OpenBlock Unit)) (inner : OpenBlock Unit),
      node.isStatement →
      (Draft.within functions ⟨head, outer, inner⟩ .statement).follow node.lexemes =
        some (Draft.within functions ⟨head, outer, inner.push node⟩ .statement)
  | .varDef name type value loc, outer, inner, shaped => by
      rw [Node.isStatement, Bool.and_eq_true] at shaped
      obtain ⟨sum, product, joined, path⟩ := Draft.follow_expression functions
        ⟨head, outer, inner⟩ { loc := (), name, type := .i32 } shaped.2
      rw [Node.lexemes]
      refine Draft.follow_cons rfl (Draft.follow_cons rfl (Draft.follow_cons rfl
        (Draft.follow_cons rfl (Draft.follow_trans path (Draft.follow_cons ?_ rfl)))))
      rw [← joined, of_decide_eq_true shaped.1]
      rfl
  | .scope ⟨kind, statements, loc⟩, outer, inner, shaped => by
      rw [Node.isStatement, Scope.isBlock, Bool.and_eq_true] at shaped
      obtain rfl : kind = .block := of_decide_eq_true shaped.1
      rw [Node.lexemes, Scope.lexemes]
      refine Draft.follow_cons rfl (Draft.follow_trans (Draft.follow_statements functions head
        statements (inner :: outer) { loc := () } shaped.2) (Draft.follow_cons rfl rfl))

/-- The lexemes of statements add them to the innermost block. -/
theorem Draft.follow_statements (functions : List (Node Unit)) (head : FunctionHead Unit) :
    ∀ (nodes : List (Node Unit)) (outer : List (OpenBlock Unit)) (inner : OpenBlock Unit),
      Scope.areStatements nodes →
      (Draft.within functions ⟨head, outer, inner⟩ .statement).follow
          (Scope.lexemesOfAll nodes) =
        some (Draft.within functions
          ⟨head, outer, { inner with statements := inner.statements ++ nodes }⟩ .statement)
  | [], outer, inner, _ => by
      rw [Scope.lexemesOfAll, List.append_nil]
      rfl
  | node :: nodes, outer, inner, shaped => by
      rw [Scope.areStatements, Bool.and_eq_true] at shaped
      have path := Draft.follow_statements functions head nodes outer (inner.push node) shaped.2
      rw [OpenBlock.push, List.append_assoc, List.singleton_append] at path
      rw [Scope.lexemesOfAll]
      exact Draft.follow_trans (Draft.follow_statement functions head node outer inner shaped.1)
        path

end

/-! ## Functions and programs -/

/-- The lexemes of a function add it to the complete ones. -/
theorem Draft.follow_function (functions : List (Node Unit)) {node : Node Unit}
    (shaped : node.isFunction) :
    ({ functions } : Draft Unit).follow node.lexemes =
      some { functions := functions ++ [node] } := by
  cases node with
  | funcDef name returnType body loc =>
      obtain ⟨kind, statements, _⟩ := body
      rw [Node.isFunction, Scope.isBlock, Bool.and_eq_true, Bool.and_eq_true] at shaped
      obtain ⟨typed, block, statementsShaped⟩ := shaped
      obtain rfl : returnType = .i32 := of_decide_eq_true typed
      obtain rfl : kind = .block := of_decide_eq_true block
      rw [Node.lexemes, Scope.lexemes]
      refine Draft.follow_cons rfl (Draft.follow_cons rfl (Draft.follow_cons rfl
        (Draft.follow_cons rfl (Draft.follow_cons rfl (Draft.follow_cons rfl ?_)))))
      exact Draft.follow_trans (Draft.follow_statements functions
        { loc := (), name, returnType := .i32 } statements [] { loc := () } statementsShaped)
        (Draft.follow_cons rfl rfl)
  | _ => cases shaped

/-- The lexemes of functions add them to the program. -/
theorem Draft.follow_functions (functions nodes : List (Node Unit))
    (shaped : nodes.all Node.isFunction) :
    ({ functions } : Draft Unit).follow (nodes.flatMap Node.lexemes) =
      some { functions := functions ++ nodes } := by
  induction nodes generalizing functions with
  | nil =>
      rw [List.append_nil]
      rfl
  | cons node nodes ih =>
      rw [List.all_cons, Bool.and_eq_true] at shaped
      have path := ih (functions ++ [node]) shaped.2
      rw [List.append_assoc, List.singleton_append] at path
      rw [List.flatMap_cons]
      exact Draft.follow_trans (Draft.follow_function functions shaped.1) path

theorem Scope.lexemes_program {α : Type} {program : Scope α} (shaped : program.isProgram) :
    program.lexemes = program.statements.flatMap Node.lexemes := by
  obtain ⟨kind, statements, loc⟩ := program
  rw [Scope.isProgram, Bool.and_eq_true] at shaped
  obtain rfl : kind = .global := of_decide_eq_true shaped.1
  rw [Scope.lexemes, Scope.lexemesOfAll_eq]

/-- The lexemes of a program lead to the draft of its functions. -/
theorem Draft.follow_program {program : Scope Unit} (shaped : program.isProgram) :
    ({} : Draft Unit).follow program.lexemes = some { functions := program.statements } := by
  rw [Scope.lexemes_program shaped]
  rw [Scope.isProgram, Bool.and_eq_true] at shaped
  exact Draft.follow_functions [] program.statements shaped.2

/-- Tokens lead to a draft, up to locations, when their lexemes do. -/
theorem Draft.after?_unit {α : Type} [Stretch α] (tokens : List (Token α)) :
    (({} : Draft α).after? tokens).map (Draft.map fun _ => ()) =
      ({} : Draft Unit).follow (tokens.map (·.toLexeme)) := by
  rw [← Draft.after?_map keepsStretch_unit, Draft.follow, List.map_map]
  rfl

end NcLang
