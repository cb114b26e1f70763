import NcLang.Proofs.Compilable
import NcLang.Proofs.Streaming

/-! # The first fault of a tree

What is wrong with a node by itself depends on whether it is the root, a statement of the root, or
further below (`Node.faultAt`). A tree has a C text exactly if nothing is wrong with any of its
nodes, and else the error is that of the first node with a fault, where each node comes before the
ones in its fields (`Scope.cText_at_first_fault`). What stands inside a function that is out of
place makes no difference.
-/

namespace NcLang

variable {α : Type}

/-! ## Faults of single nodes -/

/-- Where a node of a program stands. -/
inductive TreeLevel where
  | root
  | top
  | below
  deriving DecidableEq

/-- What is wrong with a node by itself. Functions stand at the top level and have a result that is
not writable, the root is the only global scope, and variables can be read. -/
def Node.faultAt (level : TreeLevel) : Node α → Option TreeFault
  | .binary .. | .literal .. => none
  | .varDef _ type _ _ =>
    if type.access.isReadable then none else some (.type .writeOnlyVariable)
  | .funcDef _ returnType _ _ =>
    match level with
    | .top => if returnType.access.isWritable then some (.type .writableReturn) else none
    | .root | .below => some (.internal .nestedFunction)
  | .scope inner =>
    match level, inner.kind with
    | .root, .block => some (.internal .rootNotGlobal)
    | .top, .global | .below, .global => some (.internal .nestedGlobalScope)
    | .root, .global | .top, .block | .below, .block => none

/-- A statement of the root and the nodes below it with their levels. -/
def Node.leveledParts (statement : Node α) : List (TreeLevel × Node α) :=
  (.top, statement) :: statement.parts.tail.map (Prod.mk .below)

/-- The nodes of a program with their levels, each before the ones in its fields. -/
def Scope.leveledParts (root : Scope α) : List (TreeLevel × Node α) :=
  (.root, .scope root) :: root.statements.flatMap Node.leveledParts

/-- The type of the variable that a node defines, if it defines one. -/
def Node.variableType? : Node α → Option ScalarType
  | .varDef _ type _ _ => some type
  | _ => none

/-- The type that a node returns, if it is a function. -/
def Node.returnType? : Node α → Option ScalarType
  | .funcDef _ returnType _ _ => some returnType
  | _ => none

/-- A program without faults. -/
structure Scope.WellFormed (root : Scope α) : Prop where
  global : root.kind = .global
  noNestedFunction : ∀ statement ∈ root.statements, ∀ part ∈ statement.parts.tail,
    part.tag ≠ .funcDef
  noNestedGlobal : ∀ part ∈ Scope.partsOfAll root.statements, part.tag ≠ .globalScope
  readable : ∀ part ∈ Scope.partsOfAll root.statements,
    ∀ type ∈ part.variableType?, type.access.isReadable
  notWritable : ∀ statement ∈ root.statements,
    ∀ type ∈ statement.returnType?, type.access.isWritable = false

/-- A node is the first of its parts. -/
theorem Node.parts_eq_cons (node : Node α) : node.parts = node :: node.parts.tail := by
  cases node with
  | scope inner =>
      obtain ⟨kind, statements, loc⟩ := inner
      rfl
  | _ => rfl

/-- The nodes with levels are all the nodes of the program, in their order. -/
theorem Scope.map_leveledParts (root : Scope α) : root.leveledParts.map Prod.snd = root.parts := by
  obtain ⟨kind, statements, loc⟩ := root
  rw [Scope.leveledParts, Scope.parts, Scope.partsOfAll_eq, List.map_cons, List.map_flatMap]
  congr 1
  congr 1
  funext statement
  rw [Node.leveledParts, List.map_cons, List.map_map, statement.parts_eq_cons]
  exact congrArg _ (List.map_id _)

/-! ## Programs without faults -/

/-- The nodes below the root with which nothing is wrong. -/
theorem Node.faultAt_eq_none_iff {level : TreeLevel} (notRoot : level ≠ .root) {node : Node α} :
    node.faultAt level = none ↔
      (level = .below → node.tag ≠ .funcDef) ∧ node.tag ≠ .globalScope ∧
        (∀ type ∈ node.variableType?, type.access.isReadable) ∧
        (level = .top → ∀ type ∈ node.returnType?, type.access.isWritable = false) := by
  cases node with
  | binary op lhs rhs loc =>
      cases op <;>
        simp [Node.faultAt, Node.tag, BinaryOp.tag, Node.variableType?, Node.returnType?]
  | literal value loc => simp [Node.faultAt, Node.tag, Node.variableType?, Node.returnType?]
  | varDef name type value loc =>
      simp [Node.faultAt, Node.tag, Node.variableType?, Node.returnType?]
  | funcDef name returnType body loc =>
      cases level <;> simp_all [Node.faultAt, Node.tag, Node.variableType?, Node.returnType?]
  | scope inner =>
      obtain ⟨kind, statements, loc⟩ := inner
      cases kind <;> cases level <;>
        simp_all [Node.faultAt, Node.tag, Scope.tag, Node.variableType?, Node.returnType?]

theorem Scope.forall_leveledParts (root : Scope α) (holds : TreeLevel → Node α → Prop) :
    (∀ part ∈ root.leveledParts, holds part.1 part.2) ↔
      holds .root (.scope root) ∧ ∀ statement ∈ root.statements,
        holds .top statement ∧ ∀ part ∈ statement.parts.tail, holds .below part := by
  simp only [Scope.leveledParts, Node.leveledParts, List.forall_mem_cons, List.forall_mem_flatMap,
    List.forall_mem_map]

theorem Scope.forall_partsOfAll {nodes : List (Node α)} {holds : Node α → Prop} :
    (∀ part ∈ Scope.partsOfAll nodes, holds part) ↔
      ∀ node ∈ nodes, holds node ∧ ∀ part ∈ node.parts.tail, holds part := by
  rw [Scope.partsOfAll_eq, List.forall_mem_flatMap]
  refine forall₂_congr fun node _ => ?_
  rw [node.parts_eq_cons, List.forall_mem_cons, List.tail_cons]

/-- A program is well formed if nothing is wrong with any of its nodes. -/
theorem Scope.wellFormed_iff (root : Scope α) :
    root.WellFormed ↔ ∀ part ∈ root.leveledParts, part.2.faultAt part.1 = none := by
  have top : TreeLevel.top ≠ .root := by decide
  have below : TreeLevel.below ≠ .root := by decide
  have rootFault : (Node.scope root).faultAt .root = none ↔ root.kind = .global := by
    obtain ⟨kind, statements, loc⟩ := root
    cases kind <;> simp [Node.faultAt]
  rw [Scope.forall_leveledParts root fun level node => node.faultAt level = none, rootFault]
  simp only [Node.faultAt_eq_none_iff top, Node.faultAt_eq_none_iff below]
  constructor
  · rintro ⟨global, noNestedFunction, noNestedGlobal, readable, notWritable⟩
    rw [Scope.forall_partsOfAll] at noNestedGlobal readable
    refine ⟨global, fun statement member => ⟨?_, ?_⟩⟩
    · refine ⟨?_, (noNestedGlobal statement member).1, (readable statement member).1,
        fun _ => notWritable statement member⟩
      intro isBelow
      cases isBelow
    · intro part inside
      refine ⟨fun _ => noNestedFunction statement member part inside,
        (noNestedGlobal statement member).2 part inside,
        (readable statement member).2 part inside, ?_⟩
      intro isTop
      cases isTop
  · rintro ⟨global, sound⟩
    refine ⟨global, ?_, ?_, ?_, ?_⟩
    · intro statement member part inside
      exact ((sound statement member).2 part inside).1 trivial
    · rw [Scope.forall_partsOfAll]
      intro statement member
      exact ⟨(sound statement member).1.2.1, fun part inside =>
        ((sound statement member).2 part inside).2.1⟩
    · rw [Scope.forall_partsOfAll]
      intro statement member
      exact ⟨(sound statement member).1.2.2.1, fun part inside =>
        ((sound statement member).2 part inside).2.2.1⟩
    · intro statement member
      exact (sound statement member).1.2.2.2 trivial

/-! ## Emissions and the first fault -/

/-- What is wrong with a node by itself, with its location. -/
def Node.locatedFault (level : TreeLevel) (node : Node α) : Option (Located α TreeFault) :=
  (node.faultAt level).map fun cause => { loc := node.loc, cause }

theorem Emission.fault_op (op : SinkOp) : (Emission.op op : Emission α).fault = none :=
  rfl

theorem Emission.fault_text (text : String) : (Emission.text text : Emission α).fault = none :=
  rfl

mutual

/-- The emission of a node breaks off at the first fault. -/
theorem Node.fault_emission_eq : ∀ node : Node α,
    node.emission.fault = node.parts.findSome? (Node.locatedFault .below)
  | .binary op lhs rhs loc => by
      have here : (Node.binary op lhs rhs loc).locatedFault .below = none := rfl
      rw [Node.emission, Node.parts, List.findSome?_cons, here, List.findSome?_append,
        ← Node.fault_emission_eq lhs, ← Node.fault_emission_eq rhs]
      simp only [Emission.fault_append, Emission.fault_text, Option.or_none]
  | .literal .. => rfl
  | .varDef name type value loc => by
      rw [Node.emission, ScalarType.cVariable, Node.parts, List.findSome?_cons,
        ← Node.fault_emission_eq value, Node.locatedFault, Node.faultAt]
      cases type.access with
      | writeOnly => rfl
      | _ =>
          simp only [Emission.fault_append, Emission.fault_text, Option.none_or, Option.or_none]
          rfl
  | .funcDef .. => rfl
  | .scope inner => Scope.fault_emission_eq inner

/-- The fault of a scope is that of its first part with one. -/
theorem Scope.fault_emission_eq : ∀ scope : Scope α,
    scope.emission.fault = scope.parts.findSome? (Node.locatedFault .below)
  | ⟨.block, statements, _⟩ => Scope.fault_emissionOfAll_eq statements
  | ⟨.global, _, _⟩ => rfl

theorem Scope.fault_emissionOfAll_eq : ∀ nodes : List (Node α),
    (Scope.emissionOfAll nodes).fault =
      (Scope.partsOfAll nodes).findSome? (Node.locatedFault .below)
  | [] => rfl
  | node :: nodes => by
      rw [Scope.emissionOfAll, Scope.partsOfAll, List.findSome?_append,
        ← Node.fault_emission_eq node, ← Scope.fault_emissionOfAll_eq nodes]
      simp only [Emission.fault_append, Emission.fault_op, Option.or_none]

end

theorem Node.findSome?_parts {β : Type} (node : Node α) (f : Node α → Option β) :
    node.parts.findSome? f = (f node).or (node.parts.tail.findSome? f) := by
  rw [node.parts_eq_cons, List.findSome?_cons, List.tail_cons]
  cases f node with
  | none => rfl
  | some found => rfl

/-- The emission of a node at the top level breaks off at the first fault. -/
theorem Node.fault_topEmission_eq (node : Node α) :
    node.topEmission.fault =
      node.leveledParts.findSome? fun part => part.2.locatedFault part.1 := by
  have below : node.leveledParts.findSome? (fun part => part.2.locatedFault part.1) =
      (node.locatedFault .top).or (node.parts.tail.findSome? (Node.locatedFault .below)) := by
    rw [Node.leveledParts, List.findSome?_cons, List.findSome?_map]
    cases node.locatedFault .top with
    | none => rfl
    | some fault => rfl
  rw [below]
  cases node with
  | funcDef name returnType body loc =>
      rw [Node.topEmission, Node.functionEmission, ScalarType.cReturn, Node.parts, List.tail_cons,
        ← Scope.fault_emission_eq body, Node.locatedFault, Node.faultAt]
      cases returnType.access.isWritable with
      | true => rfl
      | false =>
          simp only [Bool.false_eq_true, ↓reduceIte, Emission.fault_append, Emission.fault_op,
            Emission.fault_text, Option.none_or, Option.or_none, Option.map_none]
  | scope inner =>
      have level : (Node.scope inner).locatedFault .top =
          (Node.scope inner).locatedFault .below := by
        obtain ⟨kind, statements, loc⟩ := inner
        cases kind <;> rfl
      rw [level, ← Node.findSome?_parts, ← Node.fault_emission_eq]
      rfl
  | binary op lhs rhs loc => exact (Node.fault_emission_eq _).trans (Node.findSome?_parts _ _)
  | literal value loc => exact (Node.fault_emission_eq _).trans (Node.findSome?_parts _ _)
  | varDef name type value loc =>
      exact (Node.fault_emission_eq _).trans (Node.findSome?_parts _ _)

/-- The fault of the statements of a program is that of their first part with one, at the level at
which it stands. -/
theorem Scope.fault_topEmission_eq (nodes : List (Node α)) :
    (Scope.topEmission nodes).fault =
      (nodes.flatMap Node.leveledParts).findSome? fun part => part.2.locatedFault part.1 := by
  induction nodes with
  | nil => rfl
  | cons node nodes ih =>
      rw [Scope.topEmission, List.flatMap_cons, List.findSome?_append, ← ih,
        ← Node.fault_topEmission_eq]
      simp only [Emission.fault_append, Emission.fault_op, Option.or_none]

/-- The emission of a program breaks off at the first fault. -/
theorem Scope.fault_programEmission_eq (root : Scope α) :
    root.programEmission.fault =
      root.leveledParts.findSome? fun part => part.2.locatedFault part.1 := by
  obtain ⟨kind, statements, loc⟩ := root
  cases kind with
  | block => rfl
  | global => exact Scope.fault_topEmission_eq statements

theorem Node.locatedFault_eq_none_iff {level : TreeLevel} {node : Node α} :
    node.locatedFault level = none ↔ node.faultAt level = none :=
  Option.map_eq_none_iff

/-- A program is well formed if its emission does not break off. -/
theorem Scope.fault_eq_none_iff (root : Scope α) :
    root.programEmission.fault = none ↔ root.WellFormed := by
  rw [Scope.fault_programEmission_eq, List.findSome?_eq_none_iff, Scope.wellFormed_iff]
  simp only [Node.locatedFault_eq_none_iff]

/-- Where an emission breaks off, nothing is wrong with the nodes before. -/
theorem Scope.exists_first_fault {root : Scope α} {fault : Located α TreeFault}
    (broken : root.programEmission.fault = some fault) :
    ∃ before level node after, root.leveledParts = before ++ (level, node) :: after ∧
      (∀ part ∈ before, part.2.faultAt part.1 = none) ∧
      node.faultAt level = some fault.cause ∧ fault.loc = node.loc := by
  rw [Scope.fault_programEmission_eq] at broken
  obtain ⟨before, ⟨level, node⟩, after, split, here, earlier⟩ :=
    List.findSome?_eq_some_iff.mp broken
  obtain ⟨cause, faulty, rfl⟩ := Option.map_eq_some_iff.mp here
  exact ⟨before, level, node, after, split,
    fun part member => Node.locatedFault_eq_none_iff.mp (earlier part member), faulty, rfl⟩

/-! ## Inside functions that are out of place -/

mutual

/-- A node with the bodies of functions in it changed. -/
def Node.refill (fill : Scope α → Scope α) : Node α → Node α
  | .binary op lhs rhs loc => .binary op (lhs.refill fill) (rhs.refill fill) loc
  | .literal value loc => .literal value loc
  | .varDef name type value loc => .varDef name type (value.refill fill) loc
  | .funcDef name returnType body loc => .funcDef name returnType (fill body) loc
  | .scope inner => .scope (inner.refill fill)

/-- A scope with the bodies of functions below it changed. -/
def Scope.refill (fill : Scope α → Scope α) : Scope α → Scope α
  | ⟨kind, statements, loc⟩ => ⟨kind, Scope.refillAll fill statements, loc⟩

def Scope.refillAll (fill : Scope α → Scope α) : List (Node α) → List (Node α)
  | [] => []
  | node :: nodes => node.refill fill :: Scope.refillAll fill nodes

end

/-- A statement of a program with the bodies of functions below it changed. The body of a function
that is in place is kept. -/
def Node.refillTop (fill : Scope α → Scope α) : Node α → Node α
  | .funcDef name returnType body loc => .funcDef name returnType (body.refill fill) loc
  | node => node.refill fill

/-- A program with the bodies of functions that are out of place changed. -/
def Scope.refillNested (fill : Scope α → Scope α) (root : Scope α) : Scope α :=
  { root with statements := root.statements.map (Node.refillTop fill) }

section Refill

variable (fill : Scope α → Scope α)

mutual

/-- Bodies of functions that are out of place are never consulted. -/
theorem Node.emission_refill : ∀ node : Node α, (node.refill fill).emission = node.emission
  | .binary op lhs rhs loc => by
      rw [Node.refill, Node.emission, Node.emission, Node.emission_refill lhs,
        Node.emission_refill rhs]
  | .literal .. => rfl
  | .varDef name type value loc => by
      rw [Node.refill, Node.emission, Node.emission, Node.emission_refill value]
  | .funcDef .. => rfl
  | .scope inner => Scope.emission_refill inner

theorem Scope.emission_refill : ∀ scope : Scope α, (scope.refill fill).emission = scope.emission
  | ⟨.block, statements, _⟩ => Scope.emissionOfAll_refill statements
  | ⟨.global, _, _⟩ => rfl

theorem Scope.emissionOfAll_refill : ∀ nodes : List (Node α),
    Scope.emissionOfAll (Scope.refillAll fill nodes) = Scope.emissionOfAll nodes
  | [] => rfl
  | node :: nodes => by
      rw [Scope.refillAll, Scope.emissionOfAll, Scope.emissionOfAll, Node.emission_refill node,
        Scope.emissionOfAll_refill nodes]

end

/-- Nor are they in the statements of a program. -/
theorem Node.topEmission_refillTop (node : Node α) :
    (node.refillTop fill).topEmission = node.topEmission := by
  cases node with
  | funcDef name returnType body loc =>
      rw [Node.refillTop, Node.topEmission, Node.topEmission, Node.functionEmission,
        Node.functionEmission, Scope.emission_refill]
  | binary op lhs rhs loc => exact Node.emission_refill fill (.binary op lhs rhs loc)
  | literal value loc => rfl
  | varDef name type value loc => exact Node.emission_refill fill (.varDef name type value loc)
  | scope inner => exact Scope.emission_refill fill inner

/-- The emission of a program does not depend on the bodies of functions that are out of place. -/
theorem Scope.programEmission_refillNested (root : Scope α) :
    (root.refillNested fill).programEmission = root.programEmission := by
  have top (nodes : List (Node α)) :
      Scope.topEmission (nodes.map (Node.refillTop fill)) = Scope.topEmission nodes := by
    induction nodes with
    | nil => rfl
    | cons node nodes ih =>
        rw [List.map_cons, Scope.topEmission, Scope.topEmission, ih, Node.topEmission_refillTop]
  obtain ⟨kind, statements, loc⟩ := root
  cases kind with
  | block => rfl
  | global => exact top statements

end Refill

/-! ## The C text -/

/-- A program has a text unless its work has a fault. -/
theorem Scope.cText_eq (indent : String) (root : Scope Span) :
    root.cText indent =
      match root.programEmission.fault with
      | none => .ok (String.join (root.calls indent))
      | some fault => .error (.ofTree fault) := by
  rw [Scope.cText, Scope.write_text, Scope.fault]
  cases root.programEmission.fault with
  | none => rfl
  | some fault => rfl

/-- **A tree has a C text exactly if it is well formed, and else its first fault is the error.** The
nodes are taken in order, each before the ones in its fields, from the root on. The error is that of
the first one with which something is wrong, at its location. Nothing that stands inside a function
below the top level makes a difference, on any writer. -/
theorem Scope.cText_at_first_fault (indent : String) (root : Scope Span) :
    root.leveledParts.map Prod.snd = root.parts ∧
      ((∃ text, root.cText indent = .ok text) ↔ root.WellFormed) ∧
      (¬root.WellFormed → ∃ before level node after cause,
        root.leveledParts = before ++ (level, node) :: after ∧
        (∀ part ∈ before, part.2.faultAt part.1 = none) ∧ node.faultAt level = some cause ∧
        root.cText indent = .error (.ofTree { loc := node.loc, cause })) ∧
      ∀ (fill : Scope Span → Scope Span) (W : Type) [TextWriter W] (out : W),
        (root.refillNested fill).write indent out = root.write indent out := by
  refine ⟨root.map_leveledParts, ?_, ?_, ?_⟩
  · rw [← Scope.fault_eq_none_iff, Scope.cText_eq]
    cases root.programEmission.fault with
    | none => simp
    | some fault => simp
  · intro malformed
    rw [← Scope.fault_eq_none_iff] at malformed
    obtain ⟨⟨loc, cause⟩, broken⟩ := Option.ne_none_iff_exists'.mp malformed
    obtain ⟨before, level, node, after, split, earlier, faulty, located⟩ :=
      Scope.exists_first_fault broken
    refine ⟨before, level, node, after, cause, split, earlier, faulty, ?_⟩
    rw [Scope.cText_eq, broken, ← located]
  · intro fill W _ out
    rw [Scope.write, Scope.write, Scope.programEmission_refillNested]

/-- The empty stretch at a column of an empty source. -/
def Span.sampleAt (column : Nat) : Span :=
  Pos.emptySpan { line := 0, column, index := 0, source := { text := "", path := "" } }

/-- A function in the value of a variable, with a global scope for its body. -/
def Node.sampleStray : Node Span :=
  .funcDef "g" (ScalarType.i32.withAccess .readWrite) ⟨.global, [], Span.sampleAt 4⟩
    (Span.sampleAt 3)

/-- A tree with several faults: the stray function, the global scope in it, and a function with a
writable result after them. -/
def Scope.sampleFaults : Scope Span :=
  let value : Node Span := .scope ⟨.block, [.literal 1 (Span.sampleAt 2), .sampleStray],
    Span.sampleAt 2⟩
  let writable : Node Span := .funcDef "f" (ScalarType.i32.withAccess .readWrite)
    ⟨.block, [], Span.sampleAt 6⟩ (Span.sampleAt 5)
  ⟨.global, [.varDef "x" .i32 value (Span.sampleAt 1), writable], Span.sampleAt 0⟩

/-- Of several faults the first is reported. -/
theorem Scope.cText_sampleFaults :
    ¬Scope.sampleFaults.WellFormed ∧ ∃ before level node after cause,
      Scope.sampleFaults.leveledParts = before ++ (level, node) :: after ∧
      (∀ part ∈ before, part.2.faultAt part.1 = none) ∧ node.faultAt level = some cause ∧
      Scope.sampleFaults.cText "\t" = .error (.ofTree { loc := node.loc, cause }) ∧
      Error.ofTree { loc := node.loc, cause } =
        .internal { loc := Span.sampleAt 3, cause := .nestedFunction } := by
  have malformed : ¬Scope.sampleFaults.WellFormed := by
    intro wellFormed
    exact wellFormed.noNestedFunction _ List.mem_cons_self .sampleStray
      (by decide +kernel) rfl
  have result : Scope.sampleFaults.cText "\t" =
      .error (.internal { loc := Span.sampleAt 3, cause := .nestedFunction }) := by
    rw [Scope.cText_eq]
    rfl
  obtain ⟨before, level, node, after, cause, split, earlier, faulty, error⟩ :=
    (Scope.cText_at_first_fault "\t" Scope.sampleFaults).2.2.1 malformed
  exact ⟨malformed, before, level, node, after, cause, split, earlier, faulty, error,
    Except.error.inj (error.symm.trans result)⟩

end NcLang
