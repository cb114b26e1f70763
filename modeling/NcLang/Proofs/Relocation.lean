import NcLang.Proofs.Grammar

/-! # Reading does not depend on locations

Locations are only passed on and stretched while a program is read. So a change of location that
keeps stretches (`KeepsStretch`) may be made before or after reading: the draft that changed tokens
lead to is the changed draft. In particular all locations may be dropped, which leaves reading
lexemes alone.
-/

namespace NcLang

variable {α β : Type}

/-- Without locations, there is one way to stretch. -/
instance : Stretch Unit where
  through _ _ := ()

/-- Changes of location after which a stretch still goes from its first part to its last. -/
def KeepsStretch [Stretch α] [Stretch β] (f : α → β) : Prop :=
  ∀ first last, f (Stretch.through first last) = Stretch.through (f first) (f last)

/-- All locations may be dropped at once. -/
theorem keepsStretch_unit [Stretch α] : KeepsStretch (fun _ : α => ()) :=
  fun _ _ => rfl

/-! ## Change of location -/

/-- A token at another location. -/
def Token.map (f : α → β) (token : Token α) : Token β where
  toLexeme := token.toLexeme
  loc := f token.loc

/-- A cause at another location. -/
def Located.map {Cause : Type} (f : α → β) (located : Located α Cause) : Located β Cause where
  loc := f located.loc
  cause := located.cause

/-- A result at other locations: the fault is moved by one function, and the value changed by
another. -/
def Located.mapResult {Cause γ δ : Type} (f : α → β) (g : γ → δ) :
    Except (Located α Cause) γ → Except (Located β Cause) δ
  | .ok value => .ok (g value)
  | .error fault => .error (fault.map f)

/-- The token of a lexeme, without a location. -/
def Token.plain (lexeme : Lexeme) : Token Unit where
  toLexeme := lexeme
  loc := ()

/-- The beginning of a variable definition at another location. -/
def VariableHead.map (f : α → β) (head : VariableHead α) : VariableHead β where
  loc := f head.loc
  name := head.name
  type := head.type

/-- The operands before a place in an expression at other locations. -/
def Operands.map (f : α → β) (before : Operands α) : Operands β where
  sum := before.sum.map (Node.map f)
  product := before.product.map (Node.map f)

/-- A place in a block, reached from other locations. -/
def BlockPlace.map (f : α → β) : BlockPlace α → BlockPlace β
  | .statement => .statement
  | .variableName loc => .variableName (f loc)
  | .variableType loc name => .variableType (f loc) name
  | .equals head => .equals (head.map f)
  | .operand head before => .operand (head.map f) (before.map f)
  | .operator head sum product =>
    .operator (head.map f) (sum.map (Node.map f)) (product.map f)

/-- A block that breaks off, at other locations. -/
def OpenBlock.map (f : α → β) (block : OpenBlock α) : OpenBlock β where
  loc := f block.loc
  statements := block.statements.map (Node.map f)

/-- The beginning of a function at another location. -/
def FunctionHead.map (f : α → β) (head : FunctionHead α) : FunctionHead β where
  loc := f head.loc
  name := head.name
  returnType := head.returnType

/-- A function that breaks off, at other locations. -/
def OpenFunction.map (f : α → β) (function : OpenFunction α) : OpenFunction β where
  head := function.head.map f
  outer := function.outer.map (OpenBlock.map f)
  inner := function.inner.map f

/-- A place in a program, reached from other locations. -/
def ProgramPlace.map (f : α → β) : ProgramPlace α → ProgramPlace β
  | .function => .function
  | .functionName loc => .functionName (f loc)
  | .leftParen loc name => .leftParen (f loc) name
  | .rightParen loc name => .rightParen (f loc) name
  | .returnType loc name => .returnType (f loc) name
  | .body head => .body (head.map f)
  | .within opened place => .within (opened.map f) (place.map f)

/-- A draft at other locations. -/
def Draft.map (f : α → β) (draft : Draft α) : Draft β where
  functions := draft.functions.map (Node.map f)
  place := draft.place.map f

/-- What a token makes of a draft, at other locations. -/
def Reading.map (f : α → β) : Reading α → Reading β
  | .more draft => .more (draft.map f)
  | .complete root => .complete (root.map f)

/-- A step within a block at other locations. -/
def BlockStep.map (f : α → β) : BlockStep α → BlockStep β
  | .goOn place => .goOn (place.map f)
  | .addStatement statement => .addStatement (statement.map f)
  | .openBlock brace => .openBlock (f brace)
  | .closeBlock brace => .closeBlock (f brace)

theorem Token.map_unit (token : Token α) :
    token.map (fun _ => ()) = Token.plain token.toLexeme :=
  rfl

/-- Only the place between functions has no locations to change. -/
theorem ProgramPlace.eq_function_of_map {f : α → β} {place : ProgramPlace α}
    (mapped : place.map f = .function) : place = .function := by
  cases place with
  | function => rfl
  | _ => cases mapped

/-- A fault does not depend on locations. -/
theorem ProgramPlace.fault_map (f : α → β) (place : ProgramPlace α) (lexeme : Lexeme) :
    (place.map f).fault lexeme = place.fault lexeme := by
  cases place with
  | within function place => cases place <;> rfl
  | _ => rfl

/-! ## Putting nodes together -/

/-- A node that is changed stands at the changed location. -/
theorem Node.loc_map (f : α → β) (node : Node α) : (node.map f).loc = f node.loc := by
  cases node with
  | scope inner =>
      obtain ⟨kind, statements, loc⟩ := inner
      rfl
  | _ => rfl

section Build

variable [Stretch α] [Stretch β] {f : α → β} (keeps : KeepsStretch f)
include keeps

/-- An operand is joined to those before it in the same way at other locations. -/
theorem Node.join_map (op : BinaryOp) (lhs : Option (Node α)) (rhs : Node α) :
    (Node.join op lhs rhs).map f = Node.join op (lhs.map (Node.map f)) (rhs.map f) := by
  cases lhs with
  | none => rfl
  | some lhs =>
      simp only [Node.join, Option.map_some, Node.map, Node.loc_map]
      rw [keeps]

/-- A variable definition stretches from its changed keyword to its changed semicolon. -/
theorem VariableHead.complete_map (head : VariableHead α) (value : Node α) (semicolon : α) :
    (head.complete value semicolon).map f = (head.map f).complete (value.map f) (f semicolon) := by
  simp only [VariableHead.complete, VariableHead.map, Node.map]
  rw [keeps]

/-- A block stretches from one changed brace to the other. -/
theorem OpenBlock.complete_map (block : OpenBlock α) (brace : α) :
    (block.complete brace).map f = (block.map f).complete (f brace) := by
  simp only [OpenBlock.complete, OpenBlock.map, Scope.map, Scope.mapAll_eq]
  rw [keeps]

/-- A function stretches from its changed keyword to the end of its changed body. -/
theorem FunctionHead.complete_map (head : FunctionHead α) (body : Scope α) :
    (head.complete body).map f = (head.map f).complete (body.map f) := by
  obtain ⟨kind, statements, loc⟩ := body
  simp only [FunctionHead.complete, FunctionHead.map, Node.map, Scope.map]
  rw [keeps]

/-- A program stretches from its first changed function to its last, or stands at the changed end of
input if it has none. -/
theorem Draft.complete_map (draft : Draft α) (eof : α) :
    (draft.complete eof).map f = (draft.map f).complete (f eof) := by
  obtain ⟨functions, place⟩ := draft
  simp only [Draft.complete, Draft.map, Scope.map, Scope.mapAll_eq]
  cases functions with
  | nil => rfl
  | cons first rest =>
      obtain ⟨last, ending⟩ : ∃ last, (first :: rest).getLast? = some last :=
        ⟨_, List.getLast?_eq_some_getLast (List.cons_ne_nil first rest)⟩
      simp only [List.head?_map, List.getLast?_map, ending, List.head?_cons, Option.map_some,
        Node.loc_map]
      rw [keeps]

end Build

theorem OpenBlock.push_map (f : α → β) (block : OpenBlock α) (statement : Node α) :
    (block.push statement).map f = (block.map f).push (statement.map f) := by
  simp only [OpenBlock.push, OpenBlock.map, List.map_append, List.map_cons, List.map_nil]

/-! ## Reading -/

section Read

variable [Stretch α] [Stretch β] {f : α → β} (keeps : KeepsStretch f)
include keeps

/-- Within a block, a token is told by its lexeme alone: whether it can stand there and what it
leads to do not depend on where it stands. -/
theorem BlockPlace.read_map (place : BlockPlace α) (token : Token α) :
    (place.map f).read (token.map f) = (place.read token).map (BlockStep.map f) := by
  cases place with
  | statement =>
      simp only [BlockPlace.map, BlockPlace.read, Token.map]
      split
      · rfl
      · rfl
      · rfl
      · rw [apply_ite (Option.map _)]
        rfl
  | variableName loc =>
      simp only [BlockPlace.map, BlockPlace.read, Token.map, Option.map_map]
      rfl
  | variableType loc name =>
      simp only [BlockPlace.map, BlockPlace.read, Token.map, Option.map_map]
      rfl
  | equals head =>
      simp only [BlockPlace.map, BlockPlace.read, Token.map]
      rw [apply_ite (Option.map _)]
      rfl
  | operand head before =>
      simp only [BlockPlace.map, BlockPlace.read, Token.map, Option.map_map]
      congr 1
      funext value
      simp only [Function.comp_apply, BlockStep.map, BlockPlace.map, Node.join_map keeps]
      rfl
  | operator head sum product =>
      simp only [BlockPlace.map, BlockPlace.read, Token.map]
      split
      · rfl
      · simp only [Option.map_some, BlockStep.map, BlockPlace.map, Operands.map,
          Node.join_map keeps, Option.map_none]
      · simp only [Option.map_some, BlockStep.map, VariableHead.complete_map keeps,
          Node.join_map keeps]
      · rfl

/-- A step leads to the same draft at other locations, also where it closes a block or a function.
-/
theorem Draft.afterStep_map (functions : List (Node α)) (function : OpenFunction α)
    (step : BlockStep α) :
    (Draft.afterStep functions function step).map f =
      Draft.afterStep (functions.map (Node.map f)) (function.map f) (step.map f) := by
  obtain ⟨head, outer, inner⟩ := function
  cases step with
  | goOn place => rfl
  | addStatement statement =>
      simp only [Draft.afterStep, Draft.map, ProgramPlace.map, OpenFunction.map, BlockStep.map,
        OpenBlock.push_map]
      rfl
  | openBlock brace => rfl
  | closeBlock brace =>
      cases outer with
      | nil =>
          simp only [Draft.afterStep, Draft.map, OpenFunction.map, BlockStep.map, List.map_append,
            List.map_cons, List.map_nil, FunctionHead.complete_map keeps,
            OpenBlock.complete_map keeps]
          rfl
      | cons block outer =>
          simp only [Draft.afterStep, Draft.map, ProgramPlace.map, OpenFunction.map, BlockStep.map,
            List.map_cons, OpenBlock.push_map, Node.map, OpenBlock.complete_map keeps]
          rfl

/-- A token makes the same of a draft at other locations. -/
theorem Draft.read_map (draft : Draft α) (token : Token α) :
    (draft.map f).read (token.map f) = (draft.read token).map (Reading.map f) := by
  obtain ⟨functions, place⟩ := draft
  cases place with
  | function =>
      simp only [Draft.map, ProgramPlace.map, Draft.read, Token.map]
      rw [apply_ite (Option.map _), apply_ite (Option.map _)]
      simp only [Option.map_some, Reading.map, Draft.complete_map keeps]
      rfl
  | functionName loc =>
      simp only [Draft.map, ProgramPlace.map, Draft.read, Token.map, Option.map_map]
      rfl
  | leftParen loc name =>
      simp only [Draft.map, ProgramPlace.map, Draft.read, Token.map]
      rw [apply_ite (Option.map _)]
      rfl
  | rightParen loc name =>
      simp only [Draft.map, ProgramPlace.map, Draft.read, Token.map]
      rw [apply_ite (Option.map _)]
      rfl
  | returnType loc name =>
      simp only [Draft.map, ProgramPlace.map, Draft.read, Token.map, Option.map_map]
      rfl
  | body head =>
      simp only [Draft.map, ProgramPlace.map, Draft.read, Token.map]
      rw [apply_ite (Option.map _)]
      rfl
  | within function place =>
      simp only [Draft.map, ProgramPlace.map, Draft.read, BlockPlace.read_map keeps,
        Option.map_map]
      congr 1
      funext step
      simp only [Function.comp_apply, Reading.map, Draft.afterStep_map keeps]

end Read

end NcLang
