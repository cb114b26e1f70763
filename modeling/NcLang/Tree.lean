import NcLang.ScalarType

/-! # Program trees

The tree of a program: expressions, variable and function definitions, and scopes. The nodes carry
an annotation of any type; the parser annotates each node with its span, and the tree with all
annotations replaced by `()` is what is left when places do not matter (`Scope.erase`). A tree may
be of any shape, such as one with functions inside functions, which no program text has.
-/

namespace NcLang

/-- The operators of expressions. -/
inductive BinaryOp where
  | add
  | mul
  deriving DecidableEq

/-- The operator as it stands in an expression. -/
def BinaryOp.symbol : BinaryOp → String
  | .add => "+"
  | .mul => "*"

/-- Whether a scope is a block or the whole program. -/
inductive ScopeKind where
  | block
  | global
  deriving DecidableEq

mutual

/-- A node of a program tree. -/
inductive Node (α : Type) where
  | binary (op : BinaryOp) (lhs rhs : Node α) (loc : α)
  | literal (value : Int64) (loc : α)
  | varDef (name : String) (type : ScalarType) (value : Node α) (loc : α)
  | funcDef (name : String) (returnType : ScalarType) (body : Scope α) (loc : α)
  | scope (inner : Scope α)

/-- A list of statements. -/
structure Scope (α : Type) where
  kind : ScopeKind
  statements : List (Node α)
  loc : α

end

variable {α β : Type}

/-- The annotation of a node. -/
def Node.loc : Node α → α
  | .binary _ _ _ loc => loc
  | .literal _ loc => loc
  | .varDef _ _ _ loc => loc
  | .funcDef _ _ _ loc => loc
  | .scope inner => inner.loc

/-! ## Change of annotation -/

mutual

/-- The node with each annotation changed by a function. -/
def Node.map (f : α → β) : Node α → Node β
  | .binary op lhs rhs loc => .binary op (lhs.map f) (rhs.map f) (f loc)
  | .literal value loc => .literal value (f loc)
  | .varDef name type value loc => .varDef name type (value.map f) (f loc)
  | .funcDef name returnType body loc => .funcDef name returnType (body.map f) (f loc)
  | .scope inner => .scope (inner.map f)

/-- The scope with each annotation changed by a function. -/
def Scope.map (f : α → β) : Scope α → Scope β
  | { kind, statements, loc } => { kind, statements := Scope.mapAll f statements, loc := f loc }

/-- The nodes with each annotation changed by a function. -/
def Scope.mapAll (f : α → β) : List (Node α) → List (Node β)
  | [] => []
  | node :: nodes => node.map f :: Scope.mapAll f nodes

end

/-- The node without its annotations. -/
def Node.erase (node : Node α) : Node Unit :=
  node.map fun _ => ()

/-- The scope without its annotations. -/
def Scope.erase (scope : Scope α) : Scope Unit :=
  scope.map fun _ => ()

/-! ## Equality -/

section Equality

variable [DecidableEq α]

mutual

/-- Whether two nodes are equal, annotations included. -/
def Node.same : Node α → Node α → Bool
  | .binary op lhs rhs loc, .binary op' lhs' rhs' loc' =>
    op = op' && lhs.same lhs' && rhs.same rhs' && loc = loc'
  | .literal value loc, .literal value' loc' => value = value' && loc = loc'
  | .varDef name type value loc, .varDef name' type' value' loc' =>
    name = name' && type = type' && value.same value' && loc = loc'
  | .funcDef name type body loc, .funcDef name' type' body' loc' =>
    name = name' && type = type' && body.same body' && loc = loc'
  | .scope inner, .scope inner' => inner.same inner'
  | _, _ => false

/-- Whether two scopes are equal, annotations included. -/
def Scope.same : Scope α → Scope α → Bool
  | ⟨kind, statements, loc⟩, ⟨kind', statements', loc'⟩ =>
    kind = kind' && Scope.sameAll statements statements' && loc = loc'

/-- Whether two lists of nodes are equal, annotations included. -/
def Scope.sameAll : List (Node α) → List (Node α) → Bool
  | [], [] => true
  | node :: nodes, node' :: nodes' => node.same node' && Scope.sameAll nodes nodes'
  | _, _ => false

end

mutual

/-- The comparison of nodes decides equality. -/
theorem Node.same_iff : ∀ first second : Node α, first.same second = true ↔ first = second
  | .binary _ lhs rhs _, second => by
    cases second <;> simp [Node.same, Node.same_iff lhs, Node.same_iff rhs, and_assoc]
  | .literal _ _, second => by
    cases second <;> simp [Node.same]
  | .varDef _ _ value _, second => by
    cases second <;> simp [Node.same, Node.same_iff value, and_assoc]
  | .funcDef _ _ body _, second => by
    cases second <;> simp [Node.same, Scope.same_iff body, and_assoc]
  | .scope inner, second => by
    cases second <;> simp [Node.same, Scope.same_iff inner]

/-- The comparison of scopes decides equality. -/
theorem Scope.same_iff : ∀ first second : Scope α, first.same second = true ↔ first = second
  | ⟨_, statements, _⟩, ⟨_, _, _⟩ => by
    simp [Scope.same, Scope.sameAll_iff statements, and_assoc]

/-- The comparison of lists of nodes decides equality. -/
theorem Scope.sameAll_iff :
    ∀ first second : List (Node α), Scope.sameAll first second = true ↔ first = second
  | [], second => by cases second <;> simp [Scope.sameAll]
  | node :: nodes, second => by
    cases second <;> simp [Scope.sameAll, Node.same_iff node, Scope.sameAll_iff nodes]

end

instance : DecidableEq (Node α) := fun first second =>
  decidable_of_iff (first.same second = true) (Node.same_iff first second)

instance : DecidableEq (Scope α) := fun first second =>
  decidable_of_iff (first.same second = true) (Scope.same_iff first second)

end Equality

/-! ## Names of the parts -/

/-- The tag that tells nodes of one shape apart. -/
inductive NodeTag where
  | binAdd
  | binMul
  | intLit
  | scope
  | globalScope
  | varDef
  | funcDef
  deriving DecidableEq

/-- The tag as trees show it. -/
def NodeTag.name : NodeTag → String
  | .binAdd => "BinAdd"
  | .binMul => "BinMul"
  | .intLit => "IntLit"
  | .scope => "Scope"
  | .globalScope => "GlobalScope"
  | .varDef => "VarDef"
  | .funcDef => "FuncDef"

/-- The tag of an operator's node. -/
def BinaryOp.tag : BinaryOp → NodeTag
  | .add => .binAdd
  | .mul => .binMul

/-- The tag of a scope. -/
def Scope.tag (scope : Scope α) : NodeTag :=
  match scope.kind with
  | .block => .scope
  | .global => .globalScope

/-- The tag of a node. -/
def Node.tag : Node α → NodeTag
  | .binary op .. => op.tag
  | .literal .. => .intLit
  | .varDef .. => .varDef
  | .funcDef .. => .funcDef
  | .scope inner => inner.tag

/-- The name trees show for every scope. -/
def Scope.typeName : String :=
  "ScopeNode"

/-- The name trees show for nodes of this shape. -/
def Node.typeName : Node α → String
  | .binary .. => "BinaryNode"
  | .literal .. => "LiteralNode"
  | .varDef .. => "VarDefNode"
  | .funcDef .. => "FuncDefNode"
  | .scope _ => Scope.typeName

end NcLang
