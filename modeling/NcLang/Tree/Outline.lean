import NcLang.Outline
import NcLang.Text.Quoted
import NcLang.Tree

/-! # Program trees as outlines

A node is shown as a record of its fields. Annotations are not shown. Names are quoted, so that a
tree takes the lines it should whatever characters its names hold; which characters the quotes show
by their code is a parameter.
-/

namespace NcLang

variable {α : Type}

mutual

/-- The outline of a node, with a choice of the characters shown by their code. -/
def Node.outlineWith (byCode : Char → Bool) : Node α → Outline
  | node@(.binary _ lhs rhs _) =>
    .record node.typeName node.tag.name
      [("lhs", lhs.outlineWith byCode), ("rhs", rhs.outlineWith byCode)]
  | node@(.literal value _) =>
    .record node.typeName node.tag.name [("value", .value (Text.integer value.toInt))]
  | node@(.varDef name type value _) =>
    .record node.typeName node.tag.name
      [("name", .value (Text.Quoted.textWith byCode name)), ("ty", .value type.display),
        ("value", value.outlineWith byCode)]
  | node@(.funcDef name returnType body _) =>
    .record node.typeName node.tag.name
      [("name", .value (Text.Quoted.textWith byCode name)),
        ("return_ty", .value returnType.display), ("body", body.outlineWith byCode)]
  | .scope inner => inner.outlineWith byCode

/-- The outline of a scope, with a choice of the characters shown by their code. -/
def Scope.outlineWith (byCode : Char → Bool) : Scope α → Outline
  | scope@⟨_, statements, _⟩ =>
    .record Scope.typeName scope.tag.name
      [("statements", .list (Scope.outlinesWith byCode statements))]

/-- The outline of each node, with a choice of the characters shown by their code. -/
def Scope.outlinesWith (byCode : Char → Bool) : List (Node α) → List Outline
  | [] => []
  | node :: nodes => node.outlineWith byCode :: Scope.outlinesWith byCode nodes

end

/-- The outline of a node. -/
def Node.outline (node : Node α) : Outline :=
  node.outlineWith Text.isObscure

/-- The outline of a scope. -/
def Scope.outline (scope : Scope α) : Outline :=
  scope.outlineWith Text.isObscure

end NcLang
