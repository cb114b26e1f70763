import NcLang.Proofs.ProgramText

/-! # Parsed programs have a C text

The emission of a tree breaks off at functions and global scopes in the wrong place and at types
without a spelling. Below the functions of a parsed program there are none of these
(`Scope.Compilable`), whatever tokens it was parsed from, so every such program has a C text. Hence
the compilation of a text only fails where lexing or parsing does.
-/

namespace NcLang

variable {α : Type}

/-! ## The nodes of a tree -/

mutual

/-- A node and the nodes below it, each before the ones in its fields. -/
def Node.parts : Node α → List (Node α)
  | node@(.binary _ lhs rhs _) => node :: (lhs.parts ++ rhs.parts)
  | node@(.literal ..) => [node]
  | node@(.varDef _ _ value _) => node :: value.parts
  | node@(.funcDef _ _ body _) => node :: body.parts
  | .scope inner => inner.parts

/-- A scope and the nodes below it, each before the ones in its fields. -/
def Scope.parts : Scope α → List (Node α)
  | scope@⟨_, statements, _⟩ => .scope scope :: Scope.partsOfAll statements

/-- The parts of some nodes, in their order. -/
def Scope.partsOfAll : List (Node α) → List (Node α)
  | [] => []
  | node :: nodes => node.parts ++ Scope.partsOfAll nodes

end

/-- The nodes in the fields of a node, in their order. -/
def Node.children : Node α → List (Node α)
  | .binary _ lhs rhs _ => [lhs, rhs]
  | .literal .. => []
  | .varDef _ _ value _ => [value]
  | .funcDef _ _ body _ => [.scope body]
  | .scope inner => inner.statements

theorem Scope.partsOfAll_eq (nodes : List (Node α)) :
    Scope.partsOfAll nodes = nodes.flatMap Node.parts := by
  induction nodes with
  | nil => rfl
  | cons node nodes ih => rw [Scope.partsOfAll, ih, List.flatMap_cons]

/-- The nodes of a tree are its root and those of the trees in the fields of the root. -/
theorem Node.parts_eq (node : Node α) :
    node.parts = node :: node.children.flatMap Node.parts := by
  cases node with
  | binary op lhs rhs loc =>
      rw [Node.parts, Node.children, List.flatMap_cons, List.flatMap_singleton]
  | literal value loc => rfl
  | varDef name type value loc =>
      rw [Node.parts, Node.children, List.flatMap_singleton]
  | funcDef name returnType body loc =>
      rw [Node.parts, Node.children, List.flatMap_singleton, Node.parts]
  | scope inner =>
      obtain ⟨kind, statements, loc⟩ := inner
      rw [Node.parts, Scope.parts, Scope.partsOfAll_eq, Node.children]

/-- What holds of the children of every node of which it holds. -/
def Node.HandedDown (holds : Node α → Prop) : Prop :=
  ∀ node, holds node → ∀ child ∈ node.children, holds child

mutual

/-- What is handed down holds of all nodes below one of which it holds. -/
theorem Node.forall_parts {holds : Node α → Prop} (handedDown : Node.HandedDown holds) :
    ∀ node : Node α, holds node → ∀ part ∈ node.parts, holds part
  | .binary op lhs rhs loc, here => by
      have below := handedDown (.binary op lhs rhs loc) here
      intro part member
      rw [Node.parts, List.mem_cons, List.mem_append] at member
      rcases member with rfl | left | right
      · exact here
      · exact Node.forall_parts handedDown lhs (below lhs List.mem_cons_self) part left
      · exact Node.forall_parts handedDown rhs
          (below rhs (List.mem_cons_of_mem _ List.mem_cons_self)) part right
  | .literal value loc, here => by
      intro part member
      rw [List.mem_singleton.mp member]
      exact here
  | .varDef name type value loc, here => by
      intro part member
      rcases List.mem_cons.mp member with rfl | below
      · exact here
      · exact Node.forall_parts handedDown value (handedDown _ here value List.mem_cons_self) part
          below
  | .funcDef name type body loc, here => by
      intro part member
      rcases List.mem_cons.mp member with rfl | below
      · exact here
      · exact Scope.forall_parts handedDown body
          (handedDown _ here (.scope body) List.mem_cons_self) part below
  | .scope inner, here => Scope.forall_parts handedDown inner here

/-- What is handed down from nodes to those in their fields holds of all parts of a scope. -/
theorem Scope.forall_parts {holds : Node α → Prop} (handedDown : Node.HandedDown holds) :
    ∀ scope : Scope α, holds (.scope scope) → ∀ part ∈ scope.parts, holds part
  | ⟨kind, statements, loc⟩, here => by
      intro part member
      rcases List.mem_cons.mp member with rfl | below
      · exact here
      · exact Scope.forall_parts_all handedDown statements (handedDown _ here) part below

theorem Scope.forall_parts_all {holds : Node α → Prop} (handedDown : Node.HandedDown holds) :
    ∀ nodes : List (Node α), (∀ node ∈ nodes, holds node) →
      ∀ part ∈ Scope.partsOfAll nodes, holds part
  | [], _ => fun _ member => (List.not_mem_nil member).elim
  | node :: nodes, all => by
      intro part member
      rcases List.mem_append.mp member with here | later
      · exact Node.forall_parts handedDown node (all node List.mem_cons_self) part here
      · exact Scope.forall_parts_all handedDown nodes
          (fun other among => all other (List.mem_cons_of_mem node among)) part later

end

/-- A node that may stand anywhere in a function: it is neither a function nor a global scope, and
the type of a variable has a spelling. -/
structure Node.Inner (node : Node α) : Prop where
  noFunction : node.tag ≠ .funcDef
  noGlobal : node.tag ≠ .globalScope
  typed : ∀ name type value loc, node = .varDef name type value loc →
    ∃ spelling, type.cVariable = .ok spelling

/-- A function whose type has a spelling, with inner nodes only in its body. -/
def Node.CompilableFunction (node : Node α) : Prop :=
  ∃ name returnType body loc, node = .funcDef name returnType body loc ∧
    (∃ spelling, returnType.cReturn = .ok spelling) ∧ ∀ part ∈ body.parts, part.Inner

/-- A global scope of functions, with inner nodes only in their bodies. -/
structure Scope.Compilable (root : Scope α) : Prop where
  global : root.kind = .global
  functions : ∀ statement ∈ root.statements, statement.CompilableFunction

/-! ## The nodes of a program -/

theorem Node.inner_binary (op : BinaryOp) (lhs rhs : Node α) (loc : α) :
    (Node.binary op lhs rhs loc).Inner := by
  refine ⟨?_, ?_, nofun⟩ <;> cases op <;> exact NodeTag.noConfusion

theorem Node.inner_literal (value : Int64) (loc : α) : (Node.literal value loc).Inner :=
  ⟨NodeTag.noConfusion, NodeTag.noConfusion, nofun⟩

theorem Node.inner_varDef (name : String) (value : Node α) (loc : α) :
    (Node.varDef name .i32 value loc).Inner := by
  refine ⟨NodeTag.noConfusion, NodeTag.noConfusion, ?_⟩
  intro _ type _ _ same
  cases same
  exact ⟨"const int", rfl⟩

theorem Node.inner_block (statements : List (Node α)) (loc : α) :
    (Node.scope ⟨.block, statements, loc⟩).Inner :=
  ⟨NodeTag.noConfusion, NodeTag.noConfusion, nofun⟩

/-- The parts of an arithmetic value may stand within a function. -/
theorem Node.inner_of_isArithmetic {node : Node α} (shaped : node.isArithmetic) :
    ∀ part ∈ node.parts, part.Inner := by
  fun_induction Node.isArithmetic node with
  | case1 op lhs rhs loc ihLeft ihRight =>
      rw [Bool.and_eq_true] at shaped
      intro part member
      rw [Node.parts, List.mem_cons, List.mem_append] at member
      rcases member with rfl | left | right
      · exact Node.inner_binary op lhs rhs loc
      · exact ihLeft shaped.1 part left
      · exact ihRight shaped.2 part right
  | case2 value loc =>
      intro part member
      rw [List.mem_singleton.mp member]
      exact Node.inner_literal value loc
  | case3 => cases shaped

mutual

/-- The parts of a statement may stand within a function. -/
theorem Node.inner_of_isStatement :
    ∀ node : Node α, node.isStatement → ∀ part ∈ node.parts, part.Inner
  | .varDef name type value loc, shaped => by
      rw [Node.isStatement, Bool.and_eq_true] at shaped
      obtain rfl : type = .i32 := of_decide_eq_true shaped.1
      intro part member
      rcases List.mem_cons.mp member with rfl | below
      · exact Node.inner_varDef name value loc
      · exact Node.inner_of_isArithmetic (Node.isArithmetic_of_isExpression shaped.2) part below
  | .scope inner, shaped => Scope.inner_of_isBlock inner shaped

/-- All nodes of a block are inner nodes. -/
theorem Scope.inner_of_isBlock :
    ∀ scope : Scope α, scope.isBlock → ∀ part ∈ scope.parts, part.Inner
  | ⟨kind, statements, loc⟩, shaped => by
      rw [Scope.isBlock, Bool.and_eq_true] at shaped
      obtain rfl : kind = .block := of_decide_eq_true shaped.1
      intro part member
      rcases List.mem_cons.mp member with rfl | below
      · exact Node.inner_block statements loc
      · exact Scope.inner_of_areStatements statements shaped.2 part below

theorem Scope.inner_of_areStatements :
    ∀ nodes : List (Node α), Scope.areStatements nodes →
      ∀ part ∈ Scope.partsOfAll nodes, part.Inner
  | [], _ => fun _ member => (List.not_mem_nil member).elim
  | node :: nodes, shaped => by
      rw [Scope.areStatements, Bool.and_eq_true] at shaped
      intro part member
      rcases List.mem_append.mp member with here | later
      · exact Node.inner_of_isStatement node shaped.1 part here
      · exact Scope.inner_of_areStatements nodes shaped.2 part later

end

/-- A program of the shape that the grammar gives is compilable. -/
theorem Scope.compilable_of_isProgram {root : Scope α} (shaped : root.isProgram) :
    root.Compilable := by
  rw [Scope.isProgram, Bool.and_eq_true] at shaped
  refine ⟨of_decide_eq_true shaped.1, ?_⟩
  intro statement member
  have function := List.all_eq_true.mp shaped.2 statement member
  cases statement with
  | funcDef name returnType body loc =>
      rw [Node.isFunction, Bool.and_eq_true] at function
      obtain rfl : returnType = .i32 := of_decide_eq_true function.1
      exact ⟨name, .i32, body, loc, rfl, ⟨"int", rfl⟩, Scope.inner_of_isBlock body function.2⟩
  | _ => cases function

/-! ## Emissions that do not break off -/

/-- The first fault of two pieces of work is that of the first, if it has one. -/
theorem Emission.fault_append (first second : Emission α) :
    (first ++ second).fault = first.fault.or second.fault := by
  change (Emission.append first second).fault = _
  rw [Emission.append]
  cases fault : first.fault with
  | none => rfl
  | some located => exact fault

mutual

/-- The emission of a tree of inner nodes does not break off. -/
theorem Node.fault_emission :
    ∀ node : Node α, (∀ part ∈ node.parts, part.Inner) → node.emission.fault = none
  | .binary op lhs rhs loc, inner => by
      have left := Node.fault_emission lhs fun part member =>
        inner part (List.mem_cons_of_mem _ (List.mem_append_left _ member))
      have right := Node.fault_emission rhs fun part member =>
        inner part (List.mem_cons_of_mem _ (List.mem_append_right _ member))
      rw [Node.emission]
      simp only [Emission.fault_append, left, right]
      rfl
  | .literal .., _ => rfl
  | .varDef name type value loc, inner => by
      obtain ⟨spelling, spelled⟩ :=
        (inner (.varDef name type value loc) List.mem_cons_self).typed _ _ _ _ rfl
      have written := Node.fault_emission value fun part member =>
        inner part (List.mem_cons_of_mem _ member)
      rw [Node.emission, spelled]
      simp only [Emission.fault_append, written]
      rfl
  | .funcDef name returnType body loc, inner =>
      ((inner (.funcDef name returnType body loc) List.mem_cons_self).noFunction rfl).elim
  | .scope scope, inner => Scope.fault_emission scope inner

/-- The work of a scope has no fault if its parts may stand within a function. -/
theorem Scope.fault_emission :
    ∀ scope : Scope α, (∀ part ∈ scope.parts, part.Inner) → scope.emission.fault = none
  | ⟨.block, statements, _⟩, inner =>
      Scope.fault_emissionOfAll statements fun part member =>
        inner part (List.mem_cons_of_mem _ member)
  | ⟨.global, statements, loc⟩, inner =>
      ((inner (.scope ⟨.global, statements, loc⟩) List.mem_cons_self).noGlobal rfl).elim

theorem Scope.fault_emissionOfAll :
    ∀ nodes : List (Node α), (∀ part ∈ Scope.partsOfAll nodes, part.Inner) →
      (Scope.emissionOfAll nodes).fault = none
  | [], _ => rfl
  | node :: nodes, inner => by
      have here := Node.fault_emission node fun part member =>
        inner part (List.mem_append_left _ member)
      have later := Scope.fault_emissionOfAll nodes fun part member =>
        inner part (List.mem_append_right _ member)
      rw [Scope.emissionOfAll]
      simp only [Emission.fault_append, here, later]
      rfl

end

/-- The work of a compilable function has no fault. -/
theorem Node.CompilableFunction.fault_topEmission {node : Node α}
    (compilable : node.CompilableFunction) : node.topEmission.fault = none := by
  obtain ⟨name, returnType, body, loc, rfl, ⟨spelling, spelled⟩, inner⟩ := compilable
  have written := Scope.fault_emission body inner
  rw [Node.topEmission, Node.functionEmission, spelled]
  simp only [Emission.fault_append, written]
  rfl

theorem Scope.fault_topEmission {nodes : List (Node α)}
    (compilable : ∀ node ∈ nodes, node.CompilableFunction) :
    (Scope.topEmission nodes).fault = none := by
  induction nodes with
  | nil => rfl
  | cons node nodes ih =>
      have here := (compilable node List.mem_cons_self).fault_topEmission
      have later := ih fun other member => compilable other (List.mem_cons_of_mem node member)
      rw [Scope.topEmission]
      simp only [Emission.fault_append, here, later]
      rfl

/-- The work of a compilable program has no fault. -/
theorem Scope.Compilable.fault_programEmission {root : Scope α} (compilable : root.Compilable) :
    root.programEmission.fault = none := by
  rw [Scope.programEmission, compilable.global]
  exact Scope.fault_topEmission compilable.functions

/-- A tree without faults has a C text, however it is indented. -/
theorem Scope.Compilable.cText {root : Scope Span} (compilable : root.Compilable)
    (indent : String) : ∃ text, root.cText indent = .ok text := by
  obtain ⟨next, performed, _⟩ :=
    Sink.performAll_pen { out := "", unit := indent } root.programEmission.ops
  refine ⟨next.out, ?_⟩
  rw [Scope.cText, Scope.write, performed, compilable.fault_programEmission]
  rfl

/-! ## Texts -/

/-- Compilation in steps, each of which may be the last. -/
theorem compile_eq (text path : String) :
    compile text path =
      match (Source.ofText text path).tokens with
      | .error fault => .error (.lexical fault)
      | .ok tokens =>
        match Scope.parse tokens with
        | .error fault => .error (.grammar fault)
        | .ok root => root.cText standardIndent := by
  rw [compile, tokensOf]
  cases (Source.ofText text path).tokens with
  | error fault => rfl
  | ok tokens =>
      change (treeOf tokens >>= fun root => root.cText standardIndent) = _
      dsimp only
      rw [treeOf]
      cases Scope.parse tokens with
      | error fault => rfl
      | ok root => rfl

theorem Scope.compilable_of_parse {tokens : List (Token Span)} {root : Scope Span}
    (parsed : Scope.parse tokens = .ok root) : root.Compilable :=
  Scope.compilable_of_isProgram (Scope.isProgram_of_parse parsed)

/-- The ways in which the compilation of a text ends: at its end, in the lexer or in the parser. -/
theorem compile_cases (text path : String) :
    (∃ tokens root out, (Source.ofText text path).tokens = .ok tokens ∧
        Scope.parse tokens = .ok root ∧ root.cText standardIndent = .ok out ∧
        compile text path = .ok out) ∨
      (∃ fault, (Source.ofText text path).tokens = .error fault ∧
        compile text path = .error (.lexical fault)) ∨
      ∃ tokens fault, (Source.ofText text path).tokens = .ok tokens ∧
        Scope.parse tokens = .error fault ∧ compile text path = .error (.grammar fault) := by
  rw [compile_eq]
  cases (Source.ofText text path).tokens with
  | error fault => exact .inr (.inl ⟨fault, rfl, rfl⟩)
  | ok tokens =>
      dsimp only
      cases parsed : Scope.parse tokens with
      | error fault => exact .inr (.inr ⟨tokens, fault, rfl, parsed, rfl⟩)
      | ok root =>
          obtain ⟨out, written⟩ := (Scope.compilable_of_parse parsed).cText standardIndent
          exact .inl ⟨tokens, root, out, rfl, parsed, written, written⟩

/-- **Parsed programs have a C text.** Whatever tokens a program is parsed from, it is a global
scope of functions, there are neither functions nor global scopes below them, all types have a
spelling, and the program has a C text with every indent unit. So the compilation of a text gives a
C text, a lexical fault or a fault of the grammar, and nothing else. -/
theorem Scope.parse_compilable :
    (∀ (tokens : List (Token Span)) (root : Scope Span), Scope.parse tokens = .ok root →
        root.Compilable ∧ ∀ indent, ∃ text, root.cText indent = .ok text) ∧
      ∀ text path,
        (∃ out, compile text path = .ok out) ∨
          (∃ fault, compile text path = .error (.lexical fault)) ∨
          ∃ fault, compile text path = .error (.grammar fault) := by
  refine ⟨?_, ?_⟩
  · intro tokens root parsed
    have compilable := Scope.compilable_of_parse parsed
    exact ⟨compilable, compilable.cText⟩
  · intro text path
    rcases compile_cases text path with
      ⟨_, _, out, _, _, _, result⟩ | ⟨fault, _, result⟩ | ⟨_, fault, _, _, result⟩
    · exact .inl ⟨out, result⟩
    · exact .inr (.inl ⟨fault, result⟩)
    · exact .inr (.inr ⟨fault, result⟩)

/-- A function as the lexer would not give it: the keywords are of other kinds, and a symbol has a
value. -/
def Token.sampleMixed : List (Token Span) :=
  Token.inRow [⟨.plus, some (.keyword .fn)⟩, .ofName "f", ⟨.leftParen, some (.int 1)⟩,
    .ofKind .rightParen, ⟨.semicolon, some (.keyword .i32)⟩, .ofKind .leftBrace,
    .ofKind .rightBrace]

/-- The sample is parsed, and so it has a C text. -/
theorem Scope.parse_sampleMixed :
    ∃ root, Scope.parse Token.sampleMixed = .ok root ∧ root.Compilable ∧
      ∃ text, root.cText "\t" = .ok text := by
  obtain ⟨root, parsed⟩ : ∃ root, Scope.parse Token.sampleMixed = .ok root := ⟨_, rfl⟩
  obtain ⟨compilable, written⟩ := Scope.parse_compilable.1 Token.sampleMixed root parsed
  exact ⟨root, parsed, compilable, written "\t"⟩

end NcLang
