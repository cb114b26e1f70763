import NcLang.Proofs.Compilable

/-! # Values without parentheses

The grammar has no parentheses: the operands and operators of a value stand in a row, and they are
grouped in one way, whatever tree they were written for. Some tree of the grammar has the operands
and operators of any value (`Node.exists_regrouped`), and no two have the same
(`Node.lexemes_injective`). A tree is of that kind if no operation in it would need parentheses
(`Node.needsNoParentheses_eq`), and in a program that was read from a text all values are.
-/

namespace NcLang

open Text

variable {α : Type}

/-! ## Values that need no parentheses -/

/-- The numbers of an expression, from left to right. -/
def Node.literals : Node α → List Int64
  | .binary _ lhs rhs _ => lhs.literals ++ rhs.literals
  | .literal value _ => [value]
  | _ => []

/-- Whether a node is an operation with this operator. -/
def Node.isOperation (op : BinaryOp) : Node α → Bool
  | .binary other .. => other = op
  | _ => false

/-- Whether an expression is grouped as it would be without parentheses: no sum is a factor, and no
right operand has the operator that it is an operand of. -/
def Node.needsNoParentheses : Node α → Bool
  | .binary .add lhs rhs _ =>
    lhs.needsNoParentheses && rhs.needsNoParentheses && !rhs.isOperation .add
  | .binary .mul lhs rhs _ =>
    lhs.needsNoParentheses && rhs.needsNoParentheses && !rhs.isOperation .mul &&
      !lhs.isOperation .add && !rhs.isOperation .add
  | .literal .. => true
  | _ => false

theorem Node.isTerm_eq (node : Node α) :
    node.isTerm = (node.isExpression && !node.isOperation .add) := by
  cases node with
  | binary op lhs rhs loc =>
      cases op with
      | add => simp [Node.isTerm, Node.isOperation]
      | mul => simp [Node.isExpression, Node.isOperation]
  | _ => rfl

/-- The expressions of the grammar are those that need no parentheses. -/
theorem Node.needsNoParentheses_eq (node : Node α) :
    node.needsNoParentheses = node.isExpression := by
  fun_induction Node.needsNoParentheses node with
  | case1 lhs rhs loc ihLeft ihRight =>
      rw [ihLeft, ihRight, Node.isExpression, Node.isTerm_eq rhs, Bool.and_assoc]
  | case2 lhs rhs loc ihLeft ihRight =>
      rw [ihLeft, ihRight]
      cases rhs with
      | literal =>
          change (lhs.isExpression && true && true && !lhs.isOperation .add && true) = lhs.isTerm
          rw [Node.isTerm_eq]
          simp only [Bool.and_true]
      | binary op =>
          cases op <;> simp [Node.isOperation, Node.isExpression, Node.isTerm]
      | _ => simp [Node.isExpression, Node.isTerm]
  | case3 => rfl
  | case4 node notAdd notMul notLiteral =>
      cases node with
      | binary op lhs rhs loc =>
          cases op with
          | add => exact (notAdd _ _ _ rfl).elim
          | mul => exact (notMul _ _ _ rfl).elim
      | literal value loc => exact (notLiteral _ _ rfl).elim
      | _ => rfl

/-! ## Regrouping -/

/-- The operands and operators of an expression can be read one after the other, however it is
grouped. -/
theorem Draft.follow_arithmetic (functions : List (Node Unit)) (opened : OpenFunction Unit)
    (head : VariableHead Unit) {value : Node α} (shaped : value.isArithmetic)
    (before : Operands Unit) :
    ∃ sum product,
      (Draft.within functions opened (.operand head before)).follow value.lexemes =
        some (Draft.within functions opened (.operator head sum product)) := by
  fun_induction Node.isArithmetic value generalizing before with
  | case1 op lhs rhs loc ihLeft ihRight =>
      rw [Bool.and_eq_true] at shaped
      obtain ⟨sum, product, left⟩ := ihLeft shaped.1 before
      rw [Node.lexemes]
      cases op with
      | add =>
          obtain ⟨sum', product', right⟩ := ihRight shaped.2
            { sum := some (.join .add sum product) }
          exact ⟨sum', product', Draft.follow_trans left (Draft.follow_cons rfl right)⟩
      | mul =>
          obtain ⟨sum', product', right⟩ := ihRight shaped.2 { sum, product := some product }
          exact ⟨sum', product', Draft.follow_trans left (Draft.follow_cons rfl right)⟩
  | case2 value => exact ⟨before.sum, _, rfl⟩
  | case3 => cases shaped

/-- The operands and operators of an expression are those of one that needs no parentheses. -/
theorem Node.exists_regrouped {value : Node α} (shaped : value.isArithmetic) :
    ∃ regrouped : Node Unit, regrouped.isExpression ∧ regrouped.lexemes = value.lexemes := by
  let head : VariableHead Unit := { loc := (), name := "x", type := .i32 }
  let opened : OpenFunction Unit :=
    { head := { loc := (), name := "f", returnType := .i32 }, outer := [], inner := { loc := () } }
  obtain ⟨sum, product, path⟩ := Draft.follow_arithmetic [] opened head shaped {}
  have start : (Draft.within [] opened (.operand head {})).WellShaped :=
    ⟨rfl, ⟨rfl, rfl, nofun⟩, rfl, rfl, rfl⟩
  obtain ⟨_, _, _, sumShaped, productShaped⟩ := Draft.after?_wellShaped start path
  refine ⟨.join .add sum product, Node.isExpression_join sumShaped productShaped, ?_⟩
  have consistent : ∀ token ∈ value.lexemes.map Token.plain, token.isConsistent := by
    intro token member
    obtain ⟨lexeme, present, rfl⟩ := List.mem_map.mp member
    cases Node.inValue shaped lexeme present with
    | int => rfl
    | operator op => cases op <;> rfl
  have read := Draft.after?_lexemes consistent path
  rw [Node.lexemes_join]
  simpa [Draft.lexemes, ProgramPlace.lexemes, BlockPlace.lexemes, Node.lexemesBefore,
    Token.plain, Function.comp_def] using read

/-! ## A program around a value -/

/-- The program with one function that defines one variable. -/
def Scope.holding (loc : α) (value : Node α) : Scope α where
  kind := .global
  statements := [.funcDef "f" .i32 ⟨.block, [.varDef "x" .i32 value loc], loc⟩ loc]
  loc := loc

/-- The value of the variable, in a program with one function that defines one variable. -/
def Scope.heldValue? (root : Scope α) : Option (Node α) :=
  match root.statements with
  | [.funcDef _ _ body _] =>
    match body.statements with
    | [.varDef _ _ value _] => some value
    | _ => none
  | _ => none

/-- The text of such a program, with a text for the value. -/
def programHolding (value : String) : String :=
  "fn f() i32 \x7b var x i32 = " ++ value ++ "; \x7d"

/-- The tree of a program text. -/
def Scope.ofText (text path : String) : Except Error (Scope Span) :=
  tokensOf text path >>= treeOf

theorem Scope.isProgram_holding (loc : α) (value : Node α) :
    (Scope.holding loc value).isProgram = value.isExpression := by
  simp [Scope.holding, Scope.isProgram, Node.isFunction, Scope.isBlock, Scope.areStatements,
    Node.isStatement]

theorem Scope.lexemes_holding (loc : α) (value : Node α) :
    (Scope.holding loc value).lexemes =
      [.ofKeyword .fn, .ofName "f", .ofKind .leftParen, .ofKind .rightParen, .ofKeyword .i32,
        .ofKind .leftBrace, .ofKeyword .var, .ofName "x", .ofKeyword .i32, .ofKind .equals] ++
      (value.lexemes ++ [.ofKind .semicolon, .ofKind .rightBrace]) := by
  simp [Scope.holding, Scope.lexemes, Scope.lexemesOfAll, Node.lexemes]

/-- Expressions that need no parentheses are told by their operands and operators. -/
theorem Node.lexemes_injective {first second : Node Unit} (shapedFirst : first.isExpression)
    (shapedSecond : second.isExpression) (same : first.lexemes = second.lexemes) :
    first = second := by
  have programs : Scope.holding () first = Scope.holding () second := by
    apply Scope.lexemes_injective
    · rw [Scope.isProgram_holding]
      exact shapedFirst
    · rw [Scope.isProgram_holding]
      exact shapedSecond
    · rw [Scope.lexemes_holding, Scope.lexemes_holding, same]
  exact Option.some.inj (congrArg Scope.heldValue? programs)

theorem Scope.heldValue?_erase (root : Scope α) :
    root.erase.heldValue? = root.heldValue?.map Node.erase := by
  obtain ⟨kind, statements, loc⟩ := root
  rcases statements with _ | ⟨node, _ | ⟨second, rest⟩⟩
  · rfl
  · cases node with
    | funcDef name returnType body loc =>
        obtain ⟨bodyKind, inner, bodyLoc⟩ := body
        rcases inner with _ | ⟨statement, _ | ⟨next, later⟩⟩
        · rfl
        · cases statement <;> rfl
        · cases statement <;> rfl
    | _ => rfl
  · cases node <;> rfl

/-- The value that a program of the grammar holds is an expression of the grammar. -/
theorem Scope.isExpression_heldValue {root : Scope α} (shaped : root.isProgram) {value : Node α}
    (held : root.heldValue? = some value) : value.isExpression := by
  rw [Scope.heldValue?] at held
  rw [Scope.isProgram] at shaped
  split at held
  · rename_i name returnType body loc statements
    obtain ⟨kind, inner, bodyLoc⟩ := body
    dsimp only at held
    split at held
    · cases held
      simp_all [Node.isFunction, Scope.isBlock, Scope.areStatements, Node.isStatement]
    · cases held
  · cases held

/-- The C text of a value stands between `=` and `;`. -/
theorem Scope.cText_holding (loc : Span) {value : Node Span} (shaped : value.isArithmetic) :
    (Scope.holding loc value).cText standardIndent =
      .ok ("int f() \x7b\n    const int x = " ++ Lexeme.valueText value.lexemes ++
        ";\n\x7d\n") := by
  have line := Node.writesBody_varDef (by decide : Text.isOneLine "x") shaped loc
  have body := line.append Emission.WritesBody.nil
  let scope : Scope Span := ⟨.block, [.varDef "x" .i32 value loc], loc⟩
  have function := Node.writes_function (by decide : Text.isOneLine "f")
    (show scope.emission.WritesBody _ _ from body) loc
  have program : (Scope.holding loc value).programEmission.Writes standardIndent ⟨0, true⟩ _
      ⟨0, true⟩ :=
    (function.append Emission.writes_newLine_fresh).append Emission.Writes.nil
  rw [Scope.cText_of_writes program]
  have opening : "int f() \x7b\n    const int x = " =
      "int " ++ "f" ++ "() \x7b\n" ++ "    const int " ++ "x" ++ " = " := by decide
  have closing : ";\n\x7d\n" = ";\n" ++ "\x7d\n" := by decide
  rw [opening, closing]
  simp only [String.append_assoc, String.append_empty]

/-! ## Values in parsed programs -/

/-- The nodes below nodes of the grammar are nodes of the grammar. -/
theorem Node.handedDown_grammar : Node.HandedDown fun node : Node α =>
    node.needsNoParentheses ∨ node.isStatement ∨ node.isFunction := by
  intro node shaped child member
  cases node with
  | binary op lhs rhs loc =>
      rcases shaped with expression | absurd | absurd
      · simp only [Node.children, List.mem_cons, List.not_mem_nil, or_false] at member
        cases op <;> simp only [Node.needsNoParentheses, Bool.and_eq_true] at expression
        · rcases member with rfl | rfl
          · exact .inl expression.1.1
          · exact .inl expression.1.2
        · rcases member with rfl | rfl
          · exact .inl expression.1.1.1.1
          · exact .inl expression.1.1.1.2
      · cases absurd
      · cases absurd
  | literal value loc => cases member
  | varDef name type value loc =>
      rcases shaped with absurd | statement | absurd
      · cases absurd
      · rw [Node.isStatement, Bool.and_eq_true, ← Node.needsNoParentheses_eq] at statement
        rw [List.mem_singleton.mp member]
        exact .inl statement.2
      · cases absurd
  | funcDef name returnType body loc =>
      rcases shaped with absurd | absurd | function
      · cases absurd
      · cases absurd
      · rw [Node.isFunction, Bool.and_eq_true] at function
        rw [List.mem_singleton.mp member]
        exact .inr (.inl function.2)
  | scope inner =>
      obtain ⟨kind, statements, loc⟩ := inner
      rcases shaped with absurd | statement | absurd
      · cases absurd
      · rw [Node.isStatement, Scope.isBlock, Bool.and_eq_true, Scope.areStatements_eq] at statement
        exact .inr (.inl (List.all_eq_true.mp statement.2 child member))
      · cases absurd

/-- The lexemes of a node are among those of the nodes above it. -/
theorem Node.handedDown_lexemes (holds : Lexeme → Prop) :
    Node.HandedDown fun node : Node α => ∀ lexeme ∈ node.lexemes, holds lexeme := by
  intro node all child member lexeme present
  apply all
  cases node with
  | binary op lhs rhs loc =>
      simp only [Node.children, List.mem_cons, List.not_mem_nil, or_false] at member
      rcases member with rfl | rfl
      · exact List.mem_append_left _ present
      · exact List.mem_append_right _ (List.mem_cons_of_mem _ present)
  | literal value loc => cases member
  | varDef name type value loc =>
      rw [List.mem_singleton.mp member] at present
      rw [Node.lexemes]
      simp only [List.mem_cons, List.mem_append, present, or_true, true_or]
  | funcDef name returnType body loc =>
      rw [List.mem_singleton.mp member] at present
      rw [Node.lexemes]
      simp only [List.mem_cons]
      exact .inr (.inr (.inr (.inr (.inr present))))
  | scope inner =>
      obtain ⟨kind, statements, loc⟩ := inner
      have among : lexeme ∈ Scope.lexemesOfAll statements := by
        rw [Scope.lexemesOfAll_eq]
        exact List.mem_flatMap.mpr ⟨child, member, present⟩
      cases kind with
      | block => exact List.mem_append_left _ (List.mem_cons_of_mem _ among)
      | global => exact among

theorem Node.mem_lexemes_of_literal {value : Node α} {number : Int64}
    (member : number ∈ value.literals) : Lexeme.ofInt number ∈ value.lexemes := by
  fun_induction Node.literals value with
  | case1 op lhs rhs loc ihLeft ihRight =>
      rcases List.mem_append.mp member with left | right
      · exact List.mem_append_left _ (ihLeft left)
      · exact List.mem_append_right _ (List.mem_cons_of_mem _ (ihRight right))
  | case2 value =>
      rw [List.mem_singleton.mp member]
      exact List.mem_cons_self
  | case3 => cases member

/-- The number of a lexeme that is a word is not negative. -/
theorem Lexeme.SpelledBy.natural {word rest : List Char} {number : Int64}
    (spelled : (Lexeme.ofInt number).SpelledBy word rest) : 0 ≤ number.toInt := by
  generalize same : Lexeme.ofInt number = lexeme at spelled
  cases spelled with
  | int nonempty longest fits =>
      cases same
      have small : ((decimal word : Nat) : Int) < 2 ^ 63 := by omega
      rw [← Int64.ofInt_eq_ofNat, Int64.toInt_ofInt_of_le (by omega) (by simpa using small)]
      omega
  | keyword => cases same
  | name => cases same
  | symbol => cases same

end NcLang
