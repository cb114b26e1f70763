import NcLang.Output.Sink
import NcLang.Source
import NcLang.Tree

/-! # The C text of a program

The emission of a tree is what a sink is asked to do to write the tree's C text. It breaks off at
the first node that has no C text, and then says what is wrong with that node. Blocks leave no
trace in the C text: their statements are written one after the other, each on a line of its own.
-/

namespace NcLang

/-- Defects of a tree that no program text leads to. -/
inductive InternalFault where
  | nestedFunction
  | nestedGlobalScope
  | rootNotGlobal
  deriving DecidableEq

/-- The wording of the fault in diagnostics. -/
def InternalFault.message : InternalFault → String
  | .nestedFunction =>
    "compilation not defined for a function definition outside the global scope"
  | .nestedGlobalScope => "compilation not defined for a global scope nested in another node"
  | .rootNotGlobal => "compilation not defined for a root which is not a global scope"

/-- Why a node has no C text. -/
inductive TreeFault where
  | type (cause : TypeFault)
  | internal (cause : InternalFault)
  deriving DecidableEq

/-- Work for a sink, and the fault that ends it, if there is one. -/
structure Emission (α : Type) where
  ops : List SinkOp := []
  fault : Option (Located α TreeFault) := none

namespace Emission

variable {α : Type}

/-- The emission that asks for one thing. -/
def op (op : SinkOp) : Emission α where
  ops := [op]

/-- The emission of a piece of text. -/
def text (text : String) : Emission α :=
  op (.append text)

/-- The emission that breaks off at once. -/
def fail (loc : α) (cause : TreeFault) : Emission α where
  fault := some { loc, cause }

/-- One emission after another; if the first breaks off, that is the end. -/
def append (first second : Emission α) : Emission α :=
  match first.fault with
  | some _ => first
  | none => { ops := first.ops ++ second.ops, fault := second.fault }

instance : Append (Emission α) where
  append := append

end Emission

variable {α : Type}

mutual

/-- The emission of a node below the top level. -/
def Node.emission : Node α → Emission α
  | .binary op lhs rhs _ =>
    lhs.emission ++ Emission.text " " ++ Emission.text op.symbol ++ Emission.text " " ++
      rhs.emission
  | .literal value _ => Emission.text (Text.integer value.toInt)
  | .varDef name type value loc =>
    match type.cVariable with
    | .ok spelling =>
      Emission.text (spelling ++ " " ++ name ++ " = ") ++ value.emission ++ Emission.text ";"
    | .error cause => Emission.fail loc (.type cause)
  | .funcDef _ _ _ loc => Emission.fail loc (.internal .nestedFunction)
  | .scope inner => inner.emission

/-- The emission of a scope below the top level. -/
def Scope.emission : Scope α → Emission α
  | ⟨.block, statements, _⟩ => Scope.emissionOfAll statements
  | ⟨.global, _, loc⟩ => Emission.fail loc (.internal .nestedGlobalScope)

/-- The emission of statements, each of which ends its line. -/
def Scope.emissionOfAll : List (Node α) → Emission α
  | [] => {}
  | node :: nodes => node.emission ++ Emission.op .newLine ++ Scope.emissionOfAll nodes

end

/-- The emission of a function definition. The body is indented by one level. -/
def Node.functionEmission (name : String) (returnType : ScalarType) (body : Scope α) (loc : α) :
    Emission α :=
  match returnType.cReturn with
  | .ok spelling =>
    Emission.op .newLine ++ Emission.text spelling ++ Emission.text (" " ++ name ++ "() \x7b\n") ++
      Emission.op .indent ++ body.emission ++ Emission.op .dedent ++ Emission.op .newLine ++
      Emission.text "\x7d\n"
  | .error cause => Emission.fail loc (.type cause)

/-- The emission of a node at the top level, the only place for functions. -/
def Node.topEmission : Node α → Emission α
  | .funcDef name returnType body loc => Node.functionEmission name returnType body loc
  | node => node.emission

/-- The emission of the nodes at the top level, each of which ends its line. -/
def Scope.topEmission : List (Node α) → Emission α
  | [] => {}
  | node :: nodes => node.topEmission ++ Emission.op .newLine ++ Scope.topEmission nodes

/-- The emission of a whole program. -/
def Scope.programEmission (root : Scope α) : Emission α :=
  match root.kind with
  | .global => Scope.topEmission root.statements
  | .block => Emission.fail root.loc (.internal .rootNotGlobal)

end NcLang
