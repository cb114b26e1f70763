import NcLang.Tree.Draft

/-! # The programs of the grammar and their lexemes

The grammar is stated on trees. A tree is a program when its shape is one that the grammar gives
(`Scope.isProgram`), and its lexemes are what its nodes are written with, from left to right
(`Scope.lexemes`). A sentence is the lexemes of some program, followed by the end of input.
-/

namespace NcLang

variable {α β : Type}

/-! ## Consistent lexemes -/

namespace Lexeme

/-- The lexeme of a kind that has no values. -/
def ofKind (kind : TokenKind) : Lexeme where
  kind := kind

/-- The lexeme of a number. -/
def ofInt (value : Int64) : Lexeme where
  kind := .int
  value := some (.int value)

/-- The lexeme of a keyword. -/
def ofKeyword (word : Keyword) : Lexeme where
  kind := .keyword
  value := some (.keyword word)

/-- The lexeme of an identifier. -/
def ofName (name : String) : Lexeme where
  kind := .identifier
  value := some (.name name)

/-- The lexeme at the end of every sentence. -/
def eof : Lexeme :=
  ofKind .eof

/-- Whether integers, keywords and identifiers carry a value of their own kind, and all other
lexemes none. -/
def isConsistent (lexeme : Lexeme) : Bool :=
  match lexeme.kind, lexeme.value with
  | .int, some (.int _) => true
  | .keyword, some (.keyword _) => true
  | .identifier, some (.name _) => true
  | .int, _ | .keyword, _ | .identifier, _ => false
  | _, value => value.isNone

/-- The kinds of lexemes that have a value. -/
def carriesValue : TokenKind → Bool
  | .int | .keyword | .identifier => true
  | _ => false

variable {lexeme : Lexeme}

/-- A consistent lexeme is told by its kind, and by its value if it has one. -/
theorem consistent_cases (consistent : lexeme.isConsistent) :
    (∃ value, lexeme = ofInt value) ∨ (∃ word, lexeme = ofKeyword word) ∨
      (∃ name, lexeme = ofName name) ∨
      (carriesValue lexeme.kind = false ∧ lexeme = ofKind lexeme.kind) := by
  obtain ⟨kind, value⟩ := lexeme
  cases value with
  | none => cases kind <;> simp_all [isConsistent, carriesValue, ofKind]
  | some value =>
      cases value <;> cases kind <;>
        simp_all [isConsistent, ofInt, ofKeyword, ofName]

/-- A keyword is told by the value alone; a consistent lexeme that passes for one is one. -/
theorem eq_ofKeyword {word : Keyword} (consistent : lexeme.isConsistent)
    (keyword : lexeme.isKeyword word) : lexeme = ofKeyword word := by
  have valueEq : lexeme.value = some (.keyword word) := of_decide_eq_true keyword
  rcases consistent_cases consistent with ⟨_, rfl⟩ | ⟨_, rfl⟩ | ⟨_, rfl⟩ | ⟨_, same⟩
  · cases valueEq
  · cases valueEq
    rfl
  · cases valueEq
  · rw [same] at valueEq
    cases valueEq

/-- A name is told by kind and value, so that nothing else passes for one. -/
theorem eq_ofName {name : String} (named : lexeme.name? = some name) : lexeme = ofName name := by
  obtain ⟨kind, value⟩ := lexeme
  unfold name? at named
  split at named
  · rename_i text kindEq valueEq
    cases kindEq
    cases valueEq
    cases named
    rfl
  · cases named

/-- A number is told by kind and value as well. -/
theorem eq_ofInt {number : Int64} (counted : lexeme.int? = some number) :
    lexeme = ofInt number := by
  obtain ⟨kind, value⟩ := lexeme
  unfold int? at counted
  split at counted
  · rename_i value kindEq valueEq
    cases kindEq
    cases valueEq
    cases counted
    rfl
  · cases counted

/-- The only type is `i32`, and it is spelled by its keyword. -/
theorem type?_eq_some_iff {type : ScalarType} :
    lexeme.type? = some type ↔ lexeme.isKeyword .i32 ∧ type = .i32 := by
  unfold type?
  by_cases keyword : lexeme.isKeyword .i32
  · simp only [keyword, ↓reduceIte, Option.some.injEq, true_and]
    exact eq_comm
  · simp only [keyword, Bool.false_eq_true, ↓reduceIte, reduceCtorEq, false_and]

theorem eq_ofKind {kind : TokenKind} (consistent : lexeme.isConsistent)
    (same : lexeme.kind = kind) (bare : carriesValue kind = false) : lexeme = ofKind kind := by
  subst same
  rcases consistent_cases consistent with ⟨_, rfl⟩ | ⟨_, rfl⟩ | ⟨_, rfl⟩ | ⟨_, same⟩
  · cases bare
  · cases bare
  · cases bare
  · exact same

end Lexeme

/-- Token lists whose lexemes are consistent and in which an end of input is last. -/
structure Token.Consistent (tokens : List (Token α)) : Prop where
  lexemes : ∀ token ∈ tokens, token.isConsistent
  eofLast : ∀ token ∈ tokens.dropLast, token.kind ≠ .eof

/-- Consistency can be checked, token by token. -/
instance (tokens : List (Token α)) : Decidable (Token.Consistent tokens) :=
  decidable_of_iff
    ((∀ token ∈ tokens, token.isConsistent) ∧ ∀ token ∈ tokens.dropLast, token.kind ≠ .eof)
    ⟨fun both => ⟨both.1, both.2⟩, fun consistent => ⟨consistent.lexemes, consistent.eofLast⟩⟩

/-- The lexemes of the tokens before the end of input. -/
def Token.lexemesBeforeEof (tokens : List (Token α)) : List Lexeme :=
  (tokens.takeWhile (·.kind ≠ .eof)).map (·.toLexeme)

/-! ## Lexemes of a tree -/

/-- The kind of the symbol that an operator is written with. -/
def BinaryOp.kind : BinaryOp → TokenKind
  | .add => .plus
  | .mul => .star

mutual

/-- The lexemes that a node is written with, from left to right. -/
def Node.lexemes : Node α → List Lexeme
  | .binary op lhs rhs _ => lhs.lexemes ++ Lexeme.ofKind op.kind :: rhs.lexemes
  | .literal value _ => [Lexeme.ofInt value]
  | .varDef name _ value _ =>
    Lexeme.ofKeyword .var :: Lexeme.ofName name :: Lexeme.ofKeyword .i32 ::
      Lexeme.ofKind .equals :: value.lexemes ++ [Lexeme.ofKind .semicolon]
  | .funcDef name _ body _ =>
    Lexeme.ofKeyword .fn :: Lexeme.ofName name :: Lexeme.ofKind .leftParen ::
      Lexeme.ofKind .rightParen :: Lexeme.ofKeyword .i32 :: body.lexemes
  | .scope inner => inner.lexemes

/-- The lexemes that a scope is written with. Only blocks stand between braces. -/
def Scope.lexemes : Scope α → List Lexeme
  | ⟨.block, statements, _⟩ =>
    Lexeme.ofKind .leftBrace :: Scope.lexemesOfAll statements ++ [Lexeme.ofKind .rightBrace]
  | ⟨.global, statements, _⟩ => Scope.lexemesOfAll statements

/-- The lexemes that some nodes are written with, one after the other. -/
def Scope.lexemesOfAll : List (Node α) → List Lexeme
  | [] => []
  | node :: nodes => node.lexemes ++ Scope.lexemesOfAll nodes

end

/-! ## Shapes of trees -/

/-- Whether an expression is literals joined by `*`, grouped to the left. -/
def Node.isTerm : Node α → Bool
  | .literal .. => true
  | .binary .mul lhs (.literal ..) _ => lhs.isTerm
  | _ => false

/-- Whether an expression is terms joined by `+`, grouped to the left. -/
def Node.isExpression : Node α → Bool
  | .binary .add lhs rhs _ => lhs.isExpression && rhs.isTerm
  | node => node.isTerm

mutual

/-- Whether a node is a block or the definition of an `i32` variable. -/
def Node.isStatement : Node α → Bool
  | .varDef _ type value _ => type = .i32 && value.isExpression
  | .scope inner => inner.isBlock
  | _ => false

/-- Whether a scope is a block of statements. -/
def Scope.isBlock : Scope α → Bool
  | ⟨kind, statements, _⟩ => kind = .block && Scope.areStatements statements

/-- Whether all of some nodes are statements. -/
def Scope.areStatements : List (Node α) → Bool
  | [] => true
  | node :: nodes => node.isStatement && Scope.areStatements nodes

end

/-- Whether a node is the definition of a function that returns an `i32`. -/
def Node.isFunction : Node α → Bool
  | .funcDef _ returnType body _ => returnType = .i32 && body.isBlock
  | _ => false

/-- Whether a scope is a program of the grammar. -/
def Scope.isProgram (root : Scope α) : Bool :=
  root.kind = .global && root.statements.all Node.isFunction

/-- The lexemes of nodes in a row are put together from those of each. -/
theorem Scope.lexemesOfAll_eq (nodes : List (Node α)) :
    Scope.lexemesOfAll nodes = nodes.flatMap Node.lexemes := by
  induction nodes with
  | nil => rfl
  | cons node nodes ih => rw [Scope.lexemesOfAll, ih, List.flatMap_cons]

theorem Scope.areStatements_eq (nodes : List (Node α)) :
    Scope.areStatements nodes = nodes.all Node.isStatement := by
  induction nodes with
  | nil => rfl
  | cons node nodes ih => rw [Scope.areStatements, ih, List.all_cons]

theorem Scope.mapAll_eq (f : α → β) (nodes : List (Node α)) :
    Scope.mapAll f nodes = nodes.map (Node.map f) := by
  induction nodes with
  | nil => rfl
  | cons node nodes ih => rw [Scope.mapAll, ih, List.map_cons]

/-! ## Shapes and lexemes do not depend on annotations -/

/-- A term is one whatever its annotations are. -/
theorem Node.isTerm_map (f : α → β) (node : Node α) : (node.map f).isTerm = node.isTerm := by
  fun_induction Node.isTerm node with
  | case1 => rfl
  | case2 lhs _ _ _ ih => simpa only [Node.map, Node.isTerm] using ih
  | case3 node notLiteral notMul =>
      cases node with
      | literal => exact (notLiteral _ _ rfl).elim
      | binary op lhs rhs loc =>
          cases op with
          | add => rfl
          | mul => cases rhs <;> first | rfl | exact (notMul _ _ _ _ rfl).elim
      | _ => rfl

theorem Node.isExpression_map (f : α → β) (node : Node α) :
    (node.map f).isExpression = node.isExpression := by
  fun_induction Node.isExpression node with
  | case1 lhs rhs _ ih =>
      rw [Node.map, Node.isExpression, ih, Node.isTerm_map]
  | case2 node notAdd =>
      rw [← Node.isTerm_map f node]
      cases node with
      | binary op lhs rhs loc =>
          cases op with
          | add => exact (notAdd _ _ _ rfl).elim
          | mul => rfl
      | _ => rfl

mutual

/-- Statements are statements whatever their annotations are, and so are those in their blocks. -/
theorem Node.isStatement_map (f : α → β) :
    ∀ node : Node α, (node.map f).isStatement = node.isStatement
  | .binary .. => rfl
  | .literal .. => rfl
  | .varDef _ _ value _ => by
      rw [Node.map, Node.isStatement, Node.isStatement, Node.isExpression_map]
  | .funcDef .. => rfl
  | .scope inner => by
      rw [Node.map, Node.isStatement, Node.isStatement, Scope.isBlock_map f inner]

theorem Scope.isBlock_map (f : α → β) :
    ∀ scope : Scope α, (scope.map f).isBlock = scope.isBlock
  | ⟨_, statements, _⟩ => by
      rw [Scope.map, Scope.isBlock, Scope.isBlock, Scope.areStatements_map f statements]

theorem Scope.areStatements_map (f : α → β) :
    ∀ nodes : List (Node α), Scope.areStatements (Scope.mapAll f nodes) = Scope.areStatements nodes
  | [] => rfl
  | node :: nodes => by
      rw [Scope.mapAll, Scope.areStatements, Scope.areStatements, Node.isStatement_map f node,
        Scope.areStatements_map f nodes]

end

theorem Node.isFunction_map (f : α → β) (node : Node α) :
    (node.map f).isFunction = node.isFunction := by
  cases node with
  | funcDef name returnType body loc =>
      rw [Node.map, Node.isFunction, Node.isFunction, Scope.isBlock_map]
  | _ => rfl

/-- A program is a program whatever its annotations are. -/
theorem Scope.isProgram_map (f : α → β) (root : Scope α) :
    (root.map f).isProgram = root.isProgram := by
  obtain ⟨kind, statements, loc⟩ := root
  rw [Scope.map, Scope.isProgram, Scope.isProgram, Scope.mapAll_eq, List.all_map]
  congr 2
  funext node
  exact Node.isFunction_map f node

mutual

/-- A node is written in the same way whatever its annotations are. -/
theorem Node.lexemes_map (f : α → β) : ∀ node : Node α, (node.map f).lexemes = node.lexemes
  | .binary _ lhs rhs _ => by
      rw [Node.map, Node.lexemes, Node.lexemes, Node.lexemes_map f lhs, Node.lexemes_map f rhs]
  | .literal .. => rfl
  | .varDef _ _ value _ => by
      rw [Node.map, Node.lexemes, Node.lexemes, Node.lexemes_map f value]
  | .funcDef _ _ body _ => by
      rw [Node.map, Node.lexemes, Node.lexemes, Scope.lexemes_map f body]
  | .scope inner => by
      rw [Node.map, Node.lexemes, Node.lexemes, Scope.lexemes_map f inner]

theorem Scope.lexemes_map (f : α → β) : ∀ scope : Scope α, (scope.map f).lexemes = scope.lexemes
  | ⟨.block, statements, _⟩ => by
      rw [Scope.map, Scope.lexemes, Scope.lexemes, Scope.lexemesOfAll_map f statements]
  | ⟨.global, statements, _⟩ => by
      rw [Scope.map, Scope.lexemes, Scope.lexemes, Scope.lexemesOfAll_map f statements]

theorem Scope.lexemesOfAll_map (f : α → β) :
    ∀ nodes : List (Node α), Scope.lexemesOfAll (Scope.mapAll f nodes) = Scope.lexemesOfAll nodes
  | [] => rfl
  | node :: nodes => by
      rw [Scope.mapAll, Scope.lexemesOfAll, Scope.lexemesOfAll, Node.lexemes_map f node,
        Scope.lexemesOfAll_map f nodes]

end

/-! ## Sentences -/

/-- The lexeme lists that the grammar gives: a program and the end of input. -/
def Sentence (lexemes : List Lexeme) : Prop :=
  ∃ program : Scope Unit, program.isProgram ∧ lexemes = program.lexemes ++ [Lexeme.eof]

/-- The lexeme lists with which a sentence can start. -/
def Viable (lexemes : List Lexeme) : Prop :=
  ∃ sentence, Sentence sentence ∧ lexemes <+: sentence

end NcLang
