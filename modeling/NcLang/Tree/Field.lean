import NcLang.Tree.Outline

/-! # Fields of nodes

The fields of a node are nodes, scopes and texts under a name, and the statements of a scope are a
list of nodes. Programs, nodes and fields have a routine each that prints them as a tree. The header
of a scope is written in all three, and each routine has its own count of the depth of the lines
below it. The outline of a field bounds how far the routines go.

The routines are written twice: as they run, with overflow checked or not and stopped by a margin
that is too wide (`Field.print?`), and for the text that they are about to write, whatever its
margins (`Field.print`).
-/

namespace NcLang

variable {α : Type}

/-- A printable field of a node. Entries of a map keep their order, and keys may repeat. -/
inductive Field (α : Type) where
  | node (inner : Node α)
  | scope (inner : Scope α)
  | list (items : List (Field α))
  | map (entries : List (String × Field α))
  | value (text : String)

/-- The fields of a scope under their names. -/
def Scope.fields (scope : Scope α) : List (String × Field α) :=
  [("statements", .list (scope.statements.map .node))]

/-- The fields of a node under their names. -/
def Node.fields : Node α → List (String × Field α)
  | .binary _ lhs rhs _ => [("lhs", .node lhs), ("rhs", .node rhs)]
  | .literal value _ => [("value", .value (Text.integer value.toInt))]
  | .varDef name type value _ =>
    [("name", .value (Text.Quoted.text name)), ("ty", .value type.display), ("value", .node value)]
  | .funcDef name returnType body _ =>
    [("name", .value (Text.Quoted.text name)), ("return_ty", .value returnType.display),
      ("body", .scope body)]
  | .scope inner => inner.fields

namespace Field

mutual

/-- The outline of a field. -/
def outline : Field α → Outline
  | .node inner => inner.outline
  | .scope inner => inner.outline
  | .list items => .list (outlines items)
  | .map entries => .map (outlinesOfEntries entries)
  | .value text => .value text

/-- The outline of each item. -/
def outlines : List (Field α) → List Outline
  | [] => []
  | item :: items => item.outline :: outlines items

/-- The outline of each entry under its key. -/
def outlinesOfEntries : List (String × Field α) → List (String × Outline)
  | [] => []
  | (key, inner) :: entries => (key, inner.outline) :: outlinesOfEntries entries

end

theorem outlines_map_node (nodes : List (Node α)) :
    outlines (nodes.map .node) = Scope.outlinesWith Text.isObscure nodes := by
  induction nodes with
  | nil => rfl
  | cons node nodes ih =>
    rw [List.map_cons, outlines, Scope.outlinesWith, ih]
    rfl

end Field

/-- The outline of a scope is a record of its fields. -/
theorem Scope.outline_eq (scope : Scope α) :
    scope.outline =
      .record Scope.typeName scope.tag.name (Field.outlinesOfEntries scope.fields) := by
  obtain ⟨kind, statements, loc⟩ := scope
  simp [Scope.outline, Scope.outlineWith, Scope.fields, Field.outlinesOfEntries, Field.outline,
    Field.outlines_map_node]

/-- The outline of a node is a record of its fields. -/
theorem Node.outline_eq (node : Node α) :
    node.outline =
      .record node.typeName node.tag.name (Field.outlinesOfEntries node.fields) := by
  cases node with
  | scope inner => exact inner.outline_eq
  | _ => rfl

mutual

/-- Prints a node: its header on the current line, and its fields on lines one level deeper. -/
def Node.print (depth : Nat) (node : Node α) : String :=
  node.typeName ++ " - " ++ node.tag.name ++ "\n" ++ Field.printEntries (depth + 1) node.fields
termination_by (sizeOf node.outline, 0)
decreasing_by
  apply Prod.Lex.left
  rw [node.outline_eq]
  simp +arith

/-- Prints a field from the current line on. Further lines stand at or below the depth. -/
def Field.print (depth : Nat) : Field α → String
  | .node inner => inner.print depth
  | .scope inner =>
    Scope.typeName ++ " - " ++ inner.tag.name ++ "\n" ++ Field.printEntries (depth + 1) inner.fields
  | .list [] => "[]\n"
  | .list (item :: items) =>
    "[\n" ++ Field.printItems (depth + 1) (item :: items) ++ Outline.margin depth ++ "]\n"
  | .map [] => "\x7b\x7d\n"
  | .map (entry :: entries) =>
    "\x7b\n" ++ Field.printEntries (depth + 1) (entry :: entries) ++ Outline.margin depth ++
      "\x7d\n"
  | .value text => text ++ "\n"
termination_by field => (sizeOf field.outline, 1)
decreasing_by
  · apply Prod.Lex.right
    decide
  · apply Prod.Lex.left
    rw [Field.outline, inner.outline_eq]
    simp +arith
  · apply Prod.Lex.left
    rw [Field.outline]
    simp +arith
  · apply Prod.Lex.left
    rw [Field.outline]
    simp +arith

/-- Prints each item on lines of its own, at the depth. -/
def Field.printItems (depth : Nat) : List (Field α) → String
  | [] => ""
  | item :: items => Outline.margin depth ++ item.print depth ++ Field.printItems depth items
termination_by items => (sizeOf (Field.outlines items), 0)
decreasing_by
  · apply Prod.Lex.left
    rw [Field.outlines]
    simp +arith
  · apply Prod.Lex.left
    rw [Field.outlines]
    simp +arith

/-- Prints each entry after its key on lines of its own, at the depth. -/
def Field.printEntries (depth : Nat) : List (String × Field α) → String
  | [] => ""
  | (key, inner) :: entries =>
    Outline.margin depth ++ key ++ ": " ++ inner.print depth ++ Field.printEntries depth entries
termination_by entries => (sizeOf (Field.outlinesOfEntries entries), 0)
decreasing_by
  · apply Prod.Lex.left
    rw [Field.outlinesOfEntries]
    simp +arith
  · apply Prod.Lex.left
    rw [Field.outlinesOfEntries]
    simp +arith

end

/-! ## Margins that are too wide -/

mutual

/-- Prints a node as `Node.print` does, unless a margin is too wide. -/
def Node.print? (checked : Bool) (depth : Nat) (node : Node α) : Option String := do
  let fields ← Field.printEntries? checked (depth + 1) node.fields
  return node.typeName ++ " - " ++ node.tag.name ++ "\n" ++ fields
termination_by (sizeOf node.outline, 0)
decreasing_by
  apply Prod.Lex.left
  rw [node.outline_eq]
  simp +arith

/-- Prints a field as `Field.print` does, unless a margin is too wide. -/
def Field.print? (checked : Bool) (depth : Nat) : Field α → Option String
  | .node inner => inner.print? checked depth
  | .scope inner => do
    let fields ← Field.printEntries? checked (depth + 1) inner.fields
    return Scope.typeName ++ " - " ++ inner.tag.name ++ "\n" ++ fields
  | .list [] => return "[]\n"
  | .list (item :: items) => do
    let lines ← Field.printItems? checked (depth + 1) (item :: items)
    let margin ← Outline.margin? checked depth
    return "[\n" ++ lines ++ margin ++ "]\n"
  | .map [] => return "\x7b\x7d\n"
  | .map (entry :: entries) => do
    let lines ← Field.printEntries? checked (depth + 1) (entry :: entries)
    let margin ← Outline.margin? checked depth
    return "\x7b\n" ++ lines ++ margin ++ "\x7d\n"
  | .value text => return text ++ "\n"
termination_by field => (sizeOf field.outline, 1)
decreasing_by
  · apply Prod.Lex.right
    decide
  · apply Prod.Lex.left
    rw [Field.outline, inner.outline_eq]
    simp +arith
  · apply Prod.Lex.left
    rw [Field.outline]
    simp +arith
  · apply Prod.Lex.left
    rw [Field.outline]
    simp +arith

/-- Prints items as `Field.printItems` does, unless a margin is too wide. -/
def Field.printItems? (checked : Bool) (depth : Nat) : List (Field α) → Option String
  | [] => return ""
  | item :: items => do
    let margin ← Outline.margin? checked depth
    let here ← item.print? checked depth
    let further ← Field.printItems? checked depth items
    return margin ++ here ++ further
termination_by items => (sizeOf (Field.outlines items), 0)
decreasing_by
  · apply Prod.Lex.left
    rw [Field.outlines]
    simp +arith
  · apply Prod.Lex.left
    rw [Field.outlines]
    simp +arith

/-- Prints entries as `Field.printEntries` does, unless a margin is too wide. -/
def Field.printEntries? (checked : Bool) (depth : Nat) : List (String × Field α) → Option String
  | [] => return ""
  | (key, inner) :: entries => do
    let margin ← Outline.margin? checked depth
    let here ← inner.print? checked depth
    let further ← Field.printEntries? checked depth entries
    return margin ++ key ++ ": " ++ here ++ further
termination_by entries => (sizeOf (Field.outlinesOfEntries entries), 0)
decreasing_by
  · apply Prod.Lex.left
    rw [Field.outlinesOfEntries]
    simp +arith
  · apply Prod.Lex.left
    rw [Field.outlinesOfEntries]
    simp +arith

end

/-! ## Programs -/

/-- Prints a program as a tree, unless a margin is too wide. -/
def Scope.printTree? (checked : Bool) (root : Scope α) : Option String := do
  let fields ← Field.printEntries? checked 1 root.fields
  return Scope.typeName ++ " - " ++ root.tag.name ++ "\n" ++ fields

/-- Prints a program as a tree. -/
def Scope.printTree (root : Scope α) : String :=
  Scope.typeName ++ " - " ++ root.tag.name ++ "\n" ++ Field.printEntries 1 root.fields

end NcLang
