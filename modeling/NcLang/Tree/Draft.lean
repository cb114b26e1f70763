import NcLang.Token
import NcLang.Tree

/-! # Reading a program token by token

The grammar, with the operators from the loosest to the tightest, both grouping to the left:

```text
program    ::= function* EOF
function   ::= 'fn' IDENTIFIER '(' ')' type block
block      ::= '{' statement* '}'
statement  ::= block | 'var' IDENTIFIER type '=' expression ';'
type       ::= 'i32'
expression ::= term ('+' term)*
term       ::= INTEGER ('*' INTEGER)*
```

One token always decides how to go on, so a program is read in one pass. A `Draft` is a program
that breaks off after some token: the functions that are complete, the blocks that are still open,
and the place within the innermost construct. `Draft.read` adds a token to a draft, and
`ProgramPlace.fault` says what was wrong with a token that could not be added. Both look at the
lexeme only; locations are passed on and stretched.
-/

namespace NcLang

/-- Why a token cannot go on with a program. -/
inductive GrammarFault where
  | expectedIdentifier
  | expected (kind : TokenKind)
  | expectedType
  | expectedValue
  | expectedStatement
  | unexpectedToken
  deriving DecidableEq

/-- The wording of the fault in diagnostics. -/
def GrammarFault.message : GrammarFault → String
  | .expectedIdentifier => "expected an identifier"
  | .expected kind => "expected " ++ kind.describe
  | .expectedType => "expected a type"
  | .expectedValue => "expected a value"
  | .expectedStatement => "expected a statement"
  | .unexpectedToken => "unexpected token"

/-- The type that a keyword spells. -/
def Lexeme.type? (lexeme : Lexeme) : Option ScalarType :=
  if lexeme.isKeyword .i32 then some .i32 else none

variable {α : Type}

/-! ## Drafts -/

/-- A variable definition up to its type; the location is that of the keyword. -/
structure VariableHead (α : Type) where
  loc : α
  name : String
  type : ScalarType

/-- An expression that breaks off before an operand: the terms before the last `+`, and the factors
before the last `*` of the term that is being read. -/
structure Operands (α : Type) where
  sum : Option (Node α) := none
  product : Option (Node α) := none

/-- A place within a block, named for what comes next. -/
inductive BlockPlace (α : Type) where
  | statement
  | variableName (loc : α)
  | variableType (loc : α) (name : String)
  | equals (head : VariableHead α)
  | operand (head : VariableHead α) (before : Operands α)
  | operator (head : VariableHead α) (sum : Option (Node α)) (product : Node α)

/-- A block without its closing brace; the location is that of the opening one. -/
structure OpenBlock (α : Type) where
  loc : α
  statements : List (Node α) := []

/-- A function definition up to its return type; the location is that of the keyword. -/
structure FunctionHead (α : Type) where
  loc : α
  name : String
  returnType : ScalarType

/-- A function definition up to some place in its body: the innermost open block, and the open
blocks around it from the inside out. -/
structure OpenFunction (α : Type) where
  head : FunctionHead α
  outer : List (OpenBlock α)
  inner : OpenBlock α

/-- A place within a program, named for what comes next. -/
inductive ProgramPlace (α : Type) where
  | function
  | functionName (loc : α)
  | leftParen (loc : α) (name : String)
  | rightParen (loc : α) (name : String)
  | returnType (loc : α) (name : String)
  | body (head : FunctionHead α)
  | within (function : OpenFunction α) (place : BlockPlace α)

/-- A program that breaks off: its complete functions, and where it stands after them. -/
structure Draft (α : Type) where
  functions : List (Node α) := []
  place : ProgramPlace α := .function

/-- A program that was read further: it may go on, or it is complete. -/
inductive Reading (α : Type) where
  | more (draft : Draft α)
  | complete (root : Scope α)

/-! ## Putting nodes together -/

section Build

variable [Stretch α]

/-- The node of an operator with its operands, or the right one alone if there is no left one. -/
def Node.join (op : BinaryOp) (lhs : Option (Node α)) (rhs : Node α) : Node α :=
  match lhs with
  | some lhs => .binary op lhs rhs (Stretch.through lhs.loc rhs.loc)
  | none => rhs

/-- The definition that a semicolon completes. -/
def VariableHead.complete (head : VariableHead α) (value : Node α) (semicolon : α) : Node α :=
  .varDef head.name head.type value (Stretch.through head.loc semicolon)

/-- The block with one more statement. -/
def OpenBlock.push (block : OpenBlock α) (statement : Node α) : OpenBlock α :=
  { block with statements := block.statements ++ [statement] }

/-- The scope that a closing brace completes. -/
def OpenBlock.complete (block : OpenBlock α) (brace : α) : Scope α where
  kind := .block
  statements := block.statements
  loc := Stretch.through block.loc brace

/-- The function that its body completes. -/
def FunctionHead.complete (head : FunctionHead α) (body : Scope α) : Node α :=
  .funcDef head.name head.returnType body (Stretch.through head.loc body.loc)

/-- The program that the end of input completes. It stretches from the first function to the last; a
program without functions is where its end is. -/
def Draft.complete (draft : Draft α) (eof : α) : Scope α where
  kind := .global
  statements := draft.functions
  loc :=
    match draft.functions.head?, draft.functions.getLast? with
    | some first, some last => Stretch.through first.loc last.loc
    | _, _ => eof

end Build

/-! ## Reading a token -/

/-- What a token does within a block. -/
inductive BlockStep (α : Type) where
  | goOn (place : BlockPlace α)
  | addStatement (statement : Node α)
  | openBlock (brace : α)
  | closeBlock (brace : α)

section Read

variable [Stretch α]

/-- What a token does at a place within a block, if it can stand there. -/
def BlockPlace.read (place : BlockPlace α) (token : Token α) : Option (BlockStep α) :=
  match place with
  | .statement =>
    match token.kind with
    | .rightBrace => some (.closeBlock token.loc)
    | .eof => none
    | .leftBrace => some (.openBlock token.loc)
    | _ => if token.isKeyword .var then some (.goOn (.variableName token.loc)) else none
  | .variableName loc => token.name?.map fun name => .goOn (.variableType loc name)
  | .variableType loc name => token.type?.map fun type => .goOn (.equals { loc, name, type })
  | .equals head => if token.kind = .equals then some (.goOn (.operand head {})) else none
  | .operand head before =>
    token.int?.map fun value =>
      .goOn (.operator head before.sum (.join .mul before.product (.literal value token.loc)))
  | .operator head sum product =>
    match token.kind with
    | .star => some (.goOn (.operand head { sum, product := some product }))
    | .plus => some (.goOn (.operand head { sum := some (.join .add sum product) }))
    | .semicolon => some (.addStatement (head.complete (.join .add sum product) token.loc))
    | _ => none

/-- The draft after a step within a function that follows the complete ones. -/
def Draft.afterStep (functions : List (Node α)) (function : OpenFunction α) :
    BlockStep α → Draft α
  | .goOn place => { functions, place := .within function place }
  | .addStatement statement =>
    let inner := function.inner.push statement
    { functions, place := .within { function with inner } .statement }
  | .openBlock brace =>
    let outer := function.inner :: function.outer
    { functions, place := .within { function with outer, inner := { loc := brace } } .statement }
  | .closeBlock brace =>
    let scope := function.inner.complete brace
    match function.outer with
    | [] => { functions := functions ++ [function.head.complete scope] }
    | block :: outer =>
      let inner := block.push (.scope scope)
      { functions, place := .within { function with outer, inner } .statement }

/-- What a token makes of a draft, if it can stand there. -/
def Draft.read (draft : Draft α) (token : Token α) : Option (Reading α) :=
  let goOn (place : ProgramPlace α) : Reading α := .more { draft with place }
  match draft.place with
  | .function =>
    if token.isKeyword .fn then some (goOn (.functionName token.loc))
    else if token.kind = .eof then some (.complete (draft.complete token.loc))
    else none
  | .functionName loc => token.name?.map fun name => goOn (.leftParen loc name)
  | .leftParen loc name =>
    if token.kind = .leftParen then some (goOn (.rightParen loc name)) else none
  | .rightParen loc name =>
    if token.kind = .rightParen then some (goOn (.returnType loc name)) else none
  | .returnType loc name =>
    token.type?.map fun returnType => goOn (.body { loc, name, returnType })
  | .body head =>
    if token.kind = .leftBrace then
      some (goOn (.within { head, outer := [], inner := { loc := token.loc } } .statement))
    else none
  | .within function place =>
    (place.read token).map fun step => .more (Draft.afterStep draft.functions function step)

end Read

/-! ## Faults -/

/-- What is wrong with a token that cannot stand at a place within a block. -/
def BlockPlace.fault (place : BlockPlace α) (lexeme : Lexeme) : GrammarFault :=
  match place with
  | .statement => if lexeme.kind = .eof then .expected .rightBrace else .expectedStatement
  | .variableName _ => .expectedIdentifier
  | .variableType .. => .expectedType
  | .equals _ => .expected .equals
  | .operand .. => .expectedValue
  | .operator .. => .expected .semicolon

/-- What is wrong with a token that cannot stand at a place within a program. -/
def ProgramPlace.fault (place : ProgramPlace α) (lexeme : Lexeme) : GrammarFault :=
  match place with
  | .function => .unexpectedToken
  | .functionName _ => .expectedIdentifier
  | .leftParen .. => .expected .leftParen
  | .rightParen .. => .expected .rightParen
  | .returnType .. => .expectedType
  | .body _ => .expected .leftBrace
  | .within _ place => place.fault lexeme

/-! ## Reading a list of tokens -/

/-- The program that the tokens complete, or the first token that cannot stand where it does. Tokens
after the end of input are ignored, and past the last token that one is met again. -/
def Draft.run [Stretch α] (last : Token α) (draft : Draft α) :
    List (Token α) → Except (Located α GrammarFault) (Scope α)
  | [] => .error { loc := last.loc, cause := draft.place.fault last.toLexeme }
  | token :: rest =>
    match draft.read token with
    | some (.complete root) => .ok root
    | some (.more next) => next.run last rest
    | none => .error { loc := token.loc, cause := draft.place.fault token.toLexeme }

end NcLang
