import NcLang.Proofs.Readings
import NcLang.Tree.Field

/-! # What renderings show

The routines that print programs, nodes and fields print their outlines (`Field.prints_outline`).
The outline of a tree shows all of it but its annotations and the sign flags of floating-point
types (`Scope.outlineWith_eq_iff`). Outlines of trees are legible, so that the same is true of the
printed tree and of the text on one line (`Scope.renderings_faithful`).
-/

namespace NcLang

variable {α β : Type}

/-! ## The routines that print trees -/

/-- A record is printed as a header and its fields one level deeper. -/
theorem Outline.print_record (depth : Nat) (typeName tag : String)
    (fields : List (String × Outline)) :
    (Outline.record typeName tag fields).print depth =
      typeName ++ " - " ++ tag ++ "\n" ++
        String.join (Outline.piecesOfEntries (depth + 1) fields) := by
  rw [Outline.print, Outline.pieces]
  simp only [String.join_append, String.join_cons, String.join_nil, String.append_empty,
    String.append_assoc]

namespace Field

/-- The routines that print nodes and fields print their outlines. -/
theorem prints_outline :
    (∀ (depth : Nat) (node : Node α), node.print depth = node.outline.print depth) ∧
      (∀ (depth : Nat) (entries : List (String × Field α)), printEntries depth entries =
        String.join (Outline.piecesOfEntries depth (outlinesOfEntries entries))) ∧
      (∀ (depth : Nat) (field : Field α), field.print depth = field.outline.print depth) ∧
      ∀ (depth : Nat) (items : List (Field α)), printItems depth items =
        String.join (Outline.piecesOfItems depth (outlines items)) := by
  -- The induction follows the calls of the routines: each case is one branch of one of them.
  apply Node.print.mutual_induct
  case case1 =>
    intro depth node fields
    rw [Node.print, fields, node.outline_eq, Outline.print_record]
  case case2 =>
    intro depth
    rw [printEntries]
    rfl
  case case3 =>
    intro depth key inner entries here further
    rw [printEntries, here, further, outlinesOfEntries, Outline.piecesOfEntries]
    simp only [Outline.print, String.join_append, String.join_cons, String.append_assoc]
  case case4 =>
    intro depth inner printed
    rw [Field.print, printed, outline]
  case case5 =>
    intro depth inner fields
    rw [Field.print, fields, outline, inner.outline_eq, Outline.print_record]
  case case6 =>
    intro depth
    rw [Field.print]
    rfl
  case case7 =>
    intro depth item items inside
    rw [Field.print, inside, outline, outlines, Outline.print, Outline.pieces]
    simp only [String.join_append, String.join_cons, String.join_nil, String.append_empty,
      String.append_assoc]
    rfl
  case case8 =>
    intro depth
    rw [Field.print]
    rfl
  case case9 =>
    intro depth entry entries inside
    rw [Field.print, inside, outline, outlinesOfEntries, Outline.print, Outline.pieces]
    simp only [String.join_append, String.join_cons, String.join_nil, String.append_empty,
      String.append_assoc]
    rfl
  case case10 =>
    intro depth text
    rw [Field.print, outline, Outline.print, Outline.pieces]
    simp only [String.join_cons, String.join_nil, String.append_empty]
  case case11 =>
    intro depth
    rw [printItems]
    rfl
  case case12 =>
    intro depth item items here further
    rw [printItems, here, further, outlines, Outline.piecesOfItems]
    simp only [Outline.print, String.join_append, String.join_cons, String.append_assoc]

end Field

/-- The routine for programs prints their outlines. -/
theorem Scope.printTree_eq (root : Scope α) : root.printTree = root.outline.print 0 := by
  have inner := Field.prints_outline.2.1 1 root.fields
  rw [Scope.printTree, inner, root.outline_eq, Outline.print_record]

/-! ## What renderings show -/

mutual

/-- The node without what is not shown of it: annotations, and the sign flags of floating-point
types. -/
def Node.shown : Node α → Node Unit
  | .binary op lhs rhs _ => .binary op lhs.shown rhs.shown ()
  | .literal value _ => .literal value ()
  | .varDef name type value _ => .varDef name type.shown value.shown ()
  | .funcDef name returnType body _ => .funcDef name returnType.shown body.shown ()
  | .scope inner => .scope inner.shown

/-- The scope without what is not shown of it. -/
def Scope.shown : Scope α → Scope Unit
  | ⟨kind, statements, _⟩ => ⟨kind, Scope.allShown statements, ()⟩

/-- The nodes without what is not shown of them. -/
def Scope.allShown : List (Node α) → List (Node Unit)
  | [] => []
  | node :: nodes => node.shown :: Scope.allShown nodes

end

mutual

/-- What is left out of a node does not change its outline. -/
theorem Node.outlineWith_shown (byCode : Char → Bool) :
    ∀ node : Node α, node.shown.outlineWith byCode = node.outlineWith byCode
  | .binary op lhs rhs loc => by
      rw [Node.shown, Node.outlineWith, Node.outlineWith, Node.outlineWith_shown byCode lhs,
        Node.outlineWith_shown byCode rhs]
      rfl
  | .literal value loc => rfl
  | .varDef name type value loc => by
      rw [Node.shown, Node.outlineWith, Node.outlineWith, Node.outlineWith_shown byCode value,
        type.display_shown]
      rfl
  | .funcDef name returnType body loc => by
      rw [Node.shown, Node.outlineWith, Node.outlineWith, Scope.outlineWith_shown byCode body,
        returnType.display_shown]
      rfl
  | .scope inner => by
      rw [Node.shown, Node.outlineWith, Node.outlineWith, Scope.outlineWith_shown byCode inner]

theorem Scope.outlineWith_shown (byCode : Char → Bool) :
    ∀ scope : Scope α, scope.shown.outlineWith byCode = scope.outlineWith byCode
  | ⟨kind, statements, loc⟩ => by
      rw [Scope.shown, Scope.outlineWith, Scope.outlineWith,
        Scope.outlinesWith_allShown byCode statements]
      rfl

theorem Scope.outlinesWith_allShown (byCode : Char → Bool) :
    ∀ nodes : List (Node α),
      Scope.outlinesWith byCode (Scope.allShown nodes) = Scope.outlinesWith byCode nodes
  | [] => rfl
  | node :: nodes => by
      rw [Scope.allShown, Scope.outlinesWith, Scope.outlinesWith,
        Node.outlineWith_shown byCode node, Scope.outlinesWith_allShown byCode nodes]

end

/-- The type name that a record starts with. -/
def Outline.typeName? : Outline → Option String
  | .record typeName _ _ => some typeName
  | _ => none

theorem Node.typeName?_outlineWith (byCode : Char → Bool) (node : Node α) :
    (node.outlineWith byCode).typeName? = some node.typeName := by
  cases node with
  | scope inner => cases inner with | mk kind statements loc => rfl
  | _ => rfl

/-- The outline of a node tells its type. -/
theorem Node.typeName_eq_of_outlineWith {byCode : Char → Bool} {first : Node α} {second : Node β}
    (same : first.outlineWith byCode = second.outlineWith byCode) :
    first.typeName = second.typeName := by
  have names := congrArg Outline.typeName? same
  rw [Node.typeName?_outlineWith, Node.typeName?_outlineWith] at names
  exact Option.some.inj names

/-- No two tags have a name in common. -/
theorem NodeTag.name_injective {tag tag' : NodeTag} (same : tag.name = tag'.name) : tag = tag' := by
  cases tag <;> cases tag' <;> simp [NodeTag.name] at same ⊢

/-- The tag of a scope tells its kind. -/
theorem Scope.kind_eq_of_tag {first : Scope α} {second : Scope β} (same : first.tag = second.tag) :
    first.kind = second.kind := by
  rw [Scope.tag, Scope.tag] at same
  cases kind : first.kind <;> cases kind' : second.kind <;> simp [kind, kind'] at same ⊢

/-- The tag of an operation tells the operator. -/
theorem BinaryOp.tag_injective {op op' : BinaryOp} (same : op.tag = op'.tag) : op = op' := by
  cases op <;> cases op' <;> simp [BinaryOp.tag] at same ⊢

mutual

/-- Nodes with the same outline are the same as far as is shown. -/
theorem Node.shown_eq_of_outlineWith {byCode : Char → Bool} :
    ∀ (first : Node α) (second : Node β), first.outlineWith byCode = second.outlineWith byCode →
      first.shown = second.shown
  | .binary op lhs rhs loc, second, same => by
      have names := Node.typeName_eq_of_outlineWith same
      cases second with
      | binary op' lhs' rhs' loc' =>
          simp only [Node.outlineWith, Outline.record.injEq, List.cons.injEq, Prod.mk.injEq,
            true_and, and_true] at same
          obtain ⟨-, tags, left, right⟩ := same
          rw [Node.shown, Node.shown, BinaryOp.tag_injective (NodeTag.name_injective tags),
            Node.shown_eq_of_outlineWith lhs lhs' left,
            Node.shown_eq_of_outlineWith rhs rhs' right]
      | literal _ _ | varDef _ _ _ _ | funcDef _ _ _ _ | scope _ =>
          simp [Node.typeName, Scope.typeName] at names
  | .literal value loc, second, same => by
      have names := Node.typeName_eq_of_outlineWith same
      cases second with
      | literal value' loc' =>
          simp only [Node.outlineWith, Outline.record.injEq, List.cons.injEq, Prod.mk.injEq,
            Outline.value.injEq, true_and, and_true] at same
          rw [Node.shown, Node.shown, Int64.toInt_inj.mp (Text.integer_injective same.2.2)]
      | binary _ _ _ _ | varDef _ _ _ _ | funcDef _ _ _ _ | scope _ =>
          simp [Node.typeName, Scope.typeName] at names
  | .varDef name type value loc, second, same => by
      have names := Node.typeName_eq_of_outlineWith same
      cases second with
      | varDef name' type' value' loc' =>
          simp only [Node.outlineWith, Outline.record.injEq, List.cons.injEq, Prod.mk.injEq,
            Outline.value.injEq, true_and, and_true] at same
          obtain ⟨-, -, quoted, types, inner⟩ := same
          rw [Node.shown, Node.shown, Text.Quoted.textWith_injective quoted,
            ScalarType.display_eq_iff.mp types, Node.shown_eq_of_outlineWith value value' inner]
      | binary _ _ _ _ | literal _ _ | funcDef _ _ _ _ | scope _ =>
          simp [Node.typeName, Scope.typeName] at names
  | .funcDef name returnType body loc, second, same => by
      have names := Node.typeName_eq_of_outlineWith same
      cases second with
      | funcDef name' returnType' body' loc' =>
          simp only [Node.outlineWith, Outline.record.injEq, List.cons.injEq, Prod.mk.injEq,
            Outline.value.injEq, true_and, and_true] at same
          obtain ⟨-, -, quoted, types, inner⟩ := same
          rw [Node.shown, Node.shown, Text.Quoted.textWith_injective quoted,
            ScalarType.display_eq_iff.mp types, Scope.shown_eq_of_outlineWith body body' inner]
      | binary _ _ _ _ | literal _ _ | varDef _ _ _ _ | scope _ =>
          simp [Node.typeName, Scope.typeName] at names
  | .scope inner, second, same => by
      have names := Node.typeName_eq_of_outlineWith same
      cases second with
      | scope inner' =>
          rw [Node.outlineWith, Node.outlineWith] at same
          rw [Node.shown, Node.shown, Scope.shown_eq_of_outlineWith inner inner' same]
      | binary _ _ _ _ | literal _ _ | varDef _ _ _ _ | funcDef _ _ _ _ =>
          simp [Node.typeName, Scope.typeName] at names

theorem Scope.shown_eq_of_outlineWith {byCode : Char → Bool} :
    ∀ (first : Scope α) (second : Scope β),
      first.outlineWith byCode = second.outlineWith byCode → first.shown = second.shown
  | ⟨kind, statements, loc⟩, ⟨kind', statements', loc'⟩, same => by
      simp only [Scope.outlineWith, Outline.record.injEq, List.cons.injEq, Prod.mk.injEq,
        Outline.list.injEq, true_and, and_true] at same
      have kinds : kind = kind' := Scope.kind_eq_of_tag (NodeTag.name_injective same.1)
      rw [Scope.shown, Scope.shown, kinds,
        Scope.allShown_eq_of_outlinesWith statements statements' same.2]

theorem Scope.allShown_eq_of_outlinesWith {byCode : Char → Bool} :
    ∀ (first : List (Node α)) (second : List (Node β)),
      Scope.outlinesWith byCode first = Scope.outlinesWith byCode second →
        Scope.allShown first = Scope.allShown second
  | [], [], _ => rfl
  | [], _ :: _, same => by cases same
  | _ :: _, [], same => by cases same
  | node :: nodes, node' :: nodes', same => by
      rw [Scope.outlinesWith, Scope.outlinesWith, List.cons.injEq] at same
      rw [Scope.allShown, Scope.allShown, Node.shown_eq_of_outlineWith node node' same.1,
        Scope.allShown_eq_of_outlinesWith nodes nodes' same.2]

end

section Faithful

variable (byCode : Char → Bool) {first : Scope α} {second : Scope β}

/-- Outlines show what is left of a scope without annotations and sign flags, and no more. -/
theorem Scope.outlineWith_eq_iff :
    first.outlineWith byCode = second.outlineWith byCode ↔ first.shown = second.shown := by
  constructor
  · exact Scope.shown_eq_of_outlineWith first second
  · intro same
    rw [← Scope.outlineWith_shown, same, Scope.outlineWith_shown]

/-- Trees tell programs apart as far as these are shown. -/
theorem Scope.print_eq_iff :
    (first.outlineWith byCode).print 0 = (second.outlineWith byCode).print 0 ↔
      first.shown = second.shown := by
  rw [← Scope.outlineWith_eq_iff byCode]
  constructor
  · exact (Scope.legible_outlineWith byCode first).print_inj
      (Scope.legible_outlineWith byCode second)
  · exact congrArg (Outline.print 0)

/-- So do their forms on one line. -/
theorem Scope.flat_eq_iff :
    (first.outlineWith byCode).flat = (second.outlineWith byCode).flat ↔
      first.shown = second.shown := by
  rw [← Scope.outlineWith_eq_iff byCode]
  constructor
  · exact (Scope.legible_outlineWith byCode first).flat_inj
      (Scope.legible_outlineWith byCode second)
  · exact congrArg Outline.flat

end Faithful

end NcLang
