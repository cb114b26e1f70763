import Mathlib.Data.List.Induction
import NcLang.Proofs.Concatenation
import NcLang.Proofs.FirstFault

/-! # The indent unit

The unit by which a C text is indented does not change what is written besides it. The work that a
program is for a sink is divided into what belongs to the body of a function and what does not
(`Scope.cues`), and so are the characters of the C text (`Scope.strokes`). The sink is at depth one
in bodies, however deep the blocks in them, and at depth zero elsewhere (`Cue.Leads`). So the text
with any unit is the one without, where the unit is put once before each line that starts in the
body of a function (`Scope.cText_indent_unit`).
-/

namespace NcLang

variable {α : Type}

/-! ## Strokes -/

/-- A character of a C text, and whether it is written for the body of a function. -/
structure Stroke where
  char : Char
  inBody : Bool
  deriving DecidableEq

namespace Stroke

/-- The last character after some strokes, if the last one before them is known. -/
def lastAfter (last : Option Char) (strokes : List Stroke) : Option Char :=
  (strokes.getLast?.map Stroke.char).or last

theorem lastAfter_cons (last : Option Char) (stroke : Stroke) (strokes : List Stroke) :
    lastAfter last (stroke :: strokes) = lastAfter (some stroke.char) strokes := by
  rw [lastAfter, lastAfter, List.getLast?_cons]
  cases strokes.getLast? with
  | none => rfl
  | some final => rfl

theorem lastAfter_append (last : Option Char) (first second : List Stroke) :
    lastAfter last (first ++ second) = lastAfter (lastAfter last first) second := by
  induction first generalizing last with
  | nil => rfl
  | cons stroke first ih => rw [List.cons_append, lastAfter_cons, lastAfter_cons, ih]

/-- The text of some strokes after a last character, with the unit before the first stroke of each
line that is in the body of a function. -/
def decorate (unit : String) (last : Option Char) : List Stroke → String
  | [] => ""
  | stroke :: strokes =>
    (if last.all (· = '\n') ∧ stroke.char ≠ '\n' ∧ stroke.inBody then unit else "") ++
      String.singleton stroke.char ++ decorate unit (some stroke.char) strokes

/-- What follows some strokes is decorated as the last of them leaves the line. -/
theorem decorate_append (unit : String) (last : Option Char) (first second : List Stroke) :
    decorate unit last (first ++ second) =
      decorate unit last first ++ decorate unit (lastAfter last first) second := by
  induction first generalizing last with
  | nil => exact String.empty_append.symm
  | cons stroke first ih =>
      rw [List.cons_append, decorate, decorate, ih, lastAfter_cons, String.append_assoc,
        String.append_assoc, String.append_assoc]

/-- With an empty unit, a text is what its strokes write. -/
theorem decorate_empty (last : Option Char) (strokes : List Stroke) :
    decorate "" last strokes = String.ofList (strokes.map Stroke.char) := by
  induction strokes generalizing last with
  | nil => rfl
  | cons stroke strokes ih =>
      rw [decorate, ite_self, String.empty_append, ih, List.map_cons, String.ofList_cons]

/-! ## Lines of strokes -/

/-- A line with the line feed that ends it. -/
def IsLine (line : List Stroke) : Prop :=
  ∃ content feed, line = content ++ [feed] ∧ feed.char = '\n' ∧
    ∀ stroke ∈ content, stroke.char ≠ '\n'

/-- The strokes divided after each line feed. -/
def lines : List Stroke → List (List Stroke)
  | [] => []
  | stroke :: strokes =>
    if stroke.char = '\n' then [stroke] :: lines strokes
    else
      match lines strokes with
      | [] => [[stroke]]
      | line :: further => (stroke :: line) :: further

/-- The text of a line, with the unit before it if it is not empty and its first character is in the
body of a function. -/
def lineText (unit : String) (line : List Stroke) : String :=
  (if line.head?.any fun stroke => stroke.char ≠ '\n' && stroke.inBody then unit else "") ++
    String.ofList (line.map Stroke.char)

theorem flatten_lines (strokes : List Stroke) : (lines strokes).flatten = strokes := by
  induction strokes with
  | nil => rfl
  | cons stroke strokes ih =>
      rw [lines]
      split
      · rw [List.flatten_cons, ih, List.singleton_append]
      · cases divided : lines strokes with
        | nil =>
            rw [divided] at ih
            rw [← ih]
            rfl
        | cons line further =>
            rw [divided] at ih
            rw [← ih]
            rfl

/-- Strokes that end in a line feed are divided into lines. -/
theorem isLine_of_mem_lines {strokes : List Stroke}
    (ends : (lastAfter none strokes).all (· = '\n')) : ∀ line ∈ lines strokes, IsLine line := by
  induction strokes with
  | nil => exact nofun
  | cons stroke strokes ih =>
      rw [lastAfter_cons] at ends
      rw [lines]
      by_cases feed : stroke.char = '\n'
      · rw [if_pos feed]
        have endsToo : (lastAfter none strokes).all (· = '\n') := by
          rw [lastAfter] at ends ⊢
          cases final : strokes.getLast? with
          | none => rfl
          | some last => rwa [final] at ends
        intro line member
        obtain rfl | further := List.mem_cons.mp member
        · exact ⟨[], stroke, rfl, feed, nofun⟩
        · exact ih endsToo line further
      · rw [if_neg feed]
        -- The last of these strokes is not the first one, so the line goes on.
        obtain ⟨last, final⟩ : ∃ last, strokes.getLast? = some last := by
          cases final : strokes.getLast? with
          | none =>
              rw [lastAfter, final] at ends
              exact (feed (of_decide_eq_true ends)).elim
          | some last => exact ⟨last, rfl⟩
        rw [lastAfter, final] at ends
        have goesOn := ih (by rwa [lastAfter, final])
        have joined := flatten_lines strokes
        cases divided : lines strokes with
        | nil =>
            rw [divided] at joined
            rw [← joined] at final
            cases final
        | cons line further =>
            rw [divided] at goesOn
            intro other member
            obtain rfl | later := List.mem_cons.mp member
            · obtain ⟨content, final, rfl, fed, plain⟩ := goesOn line List.mem_cons_self
              refine ⟨stroke :: content, final, rfl, fed, ?_⟩
              intro inside present
              obtain rfl | present := List.mem_cons.mp present
              · exact feed
              · exact plain inside present
            · exact goesOn other (List.mem_cons_of_mem line later)

/-- Where a line has begun, its rest is not indented. -/
theorem decorate_inLine (unit : String) {c : Char} (inLine : c ≠ '\n') {content : List Stroke}
    (plain : ∀ stroke ∈ content, stroke.char ≠ '\n') (feed : Stroke) :
    decorate unit (some c) (content ++ [feed]) =
      String.ofList ((content ++ [feed]).map Stroke.char) := by
  have inside : (some c).all (· = '\n') = false := decide_eq_false inLine
  induction content generalizing c with
  | nil =>
      rw [List.nil_append, decorate, inside]
      simp [decorate]
  | cons stroke content ih =>
      have here := plain stroke List.mem_cons_self
      have further := ih here (fun other member => plain other (List.mem_cons_of_mem stroke member))
        (decide_eq_false here)
      rw [List.cons_append, decorate, inside, further]
      simp

/-- A line gets the unit once at most. -/
theorem decorate_line (unit : String) {last : Option Char} (fresh : last.all (· = '\n'))
    {line : List Stroke} (isLine : IsLine line) :
    decorate unit last line = lineText unit line ∧ lastAfter last line = some '\n' := by
  obtain ⟨content, feed, rfl, fed, plain⟩ := isLine
  constructor
  · cases content with
    | nil => simp [decorate, lineText, fed]
    | cons stroke content =>
        have here := plain stroke List.mem_cons_self
        have further := decorate_inLine unit here
          (fun other member => plain other (List.mem_cons_of_mem stroke member)) feed
        have marked : (last.all (· = '\n') ∧ stroke.char ≠ '\n' ∧ stroke.inBody) ↔
            (stroke :: (content ++ [feed])).head?.any
              fun stroke => stroke.char ≠ '\n' && stroke.inBody := by
          simp [fresh, here]
        rw [List.cons_append, decorate, further, lineText, List.map_cons, String.ofList_cons,
          String.append_assoc]
        simp only [marked]
  · rw [lastAfter, List.getLast?_concat, Option.map_some, fed]
    rfl

/-- Lines are decorated each by itself. -/
theorem decorate_lines (unit : String) {last : Option Char} (fresh : last.all (· = '\n'))
    {lines : List (List Stroke)} (areLines : ∀ line ∈ lines, IsLine line) :
    decorate unit last lines.flatten = String.join (lines.map (lineText unit)) := by
  induction lines generalizing last with
  | nil => rfl
  | cons line lines ih =>
      obtain ⟨text, ends⟩ := decorate_line unit fresh (areLines line List.mem_cons_self)
      rw [List.flatten_cons, decorate_append, List.map_cons, String.join_cons, text, ends,
        ih rfl fun other member => areLines other (List.mem_cons_of_mem line member)]

end Stroke

/-! ## Cues -/

/-- Whether the depth is the same before and after. -/
def SinkOp.keepsDepth : SinkOp → Bool
  | .indent | .dedent => false
  | .append _ | .newLine => true

/-- One thing for a sink to do, and whether it belongs to the body of a function. -/
structure Cue where
  op : SinkOp
  inBody : Bool

namespace Cue

/-- The work that is not for the body of a function. -/
def outside (ops : List SinkOp) : List Cue :=
  ops.map fun op => { op, inBody := false }

/-- The work for the body of a function. -/
def inside (ops : List SinkOp) : List Cue :=
  ops.map fun op => { op, inBody := true }

/-- The strokes for one cue, after a last character. -/
def ownStrokes (last : Option Char) : Cue → List Stroke
  | { op := .indent, .. } | { op := .dedent, .. } => []
  | { op := .append text, inBody } => text.toList.map fun char => { char, inBody }
  | { op := .newLine, inBody } => if last.all (· = '\n') then [] else [{ char := '\n', inBody }]

/-- The strokes for some cues one after the other. No unit and no depth decides on them. -/
def strokes (last : Option Char) : List Cue → List Stroke
  | [] => []
  | cue :: cues => cue.ownStrokes last ++ strokes (Stroke.lastAfter last (cue.ownStrokes last)) cues

/-- Cues that follow others go on from the last stroke of these. -/
theorem strokes_append (last : Option Char) (first second : List Cue) :
    strokes last (first ++ second) =
      strokes last first ++ strokes (Stroke.lastAfter last (strokes last first)) second := by
  induction first generalizing last with
  | nil => rfl
  | cons cue first ih =>
      rw [List.cons_append, strokes, strokes, ih, Stroke.lastAfter_append, List.append_assoc]

/-- After the end of a line, the last character is a line feed, if there is one. -/
theorem lastAfter_newLine (cues : List Cue) (inBody : Bool) (last : Option Char) :
    (Stroke.lastAfter last (strokes last (cues ++ [{ op := .newLine, inBody }]))).all
      (· = '\n') := by
  rw [strokes_append, Stroke.lastAfter_append]
  generalize Stroke.lastAfter last (strokes last cues) = between
  cases start : between.all (· = '\n') with
  | true => simp [strokes, ownStrokes, start, Stroke.lastAfter]
  | false => simp [strokes, ownStrokes, start, Stroke.lastAfter]

/-- Cues that lead from one depth to another, where all that is written for the body of a function
is written at depth one, and all else at depth zero. -/
inductive Leads : Nat → List Cue → Nat → Prop
  | nil (depth : Nat) : Leads depth [] depth
  | indent {depth after : Nat} {cues : List Cue} {inBody : Bool}
      (further : Leads (depth + 1) cues after) :
      Leads depth ({ op := .indent, inBody } :: cues) after
  | dedent {depth after : Nat} {cues : List Cue} {inBody : Bool}
      (further : Leads (depth - 1) cues after) :
      Leads depth ({ op := .dedent, inBody } :: cues) after
  | append {after : Nat} {cues : List Cue} (inBody : Bool) (text : String)
      (further : Leads inBody.toNat cues after) :
      Leads inBody.toNat ({ op := .append text, inBody } :: cues) after
  | newLine {after : Nat} {cues : List Cue} (inBody : Bool)
      (further : Leads inBody.toNat cues after) :
      Leads inBody.toNat ({ op := .newLine, inBody } :: cues) after

/-- Depths are led on from one list of cues to the next. -/
theorem Leads.trans {before between after : Nat} {first second : List Cue}
    (leads : Leads before first between) (leadsOn : Leads between second after) :
    Leads before (first ++ second) after := by
  induction leads with
  | nil depth => exact leadsOn
  | indent _ ih => exact .indent (ih leadsOn)
  | dedent _ ih => exact .dedent (ih leadsOn)
  | append inBody text _ ih => exact .append inBody text (ih leadsOn)
  | newLine inBody _ ih => exact .newLine inBody (ih leadsOn)

/-- What is written at one depth, wherever it belongs, leads back to that depth. -/
theorem leads_of_keepsDepth {ops : List SinkOp} (keeps : ∀ op ∈ ops, op.keepsDepth)
    (inBody : Bool) :
    Leads inBody.toNat (ops.map fun op => { op, inBody }) inBody.toNat := by
  induction ops with
  | nil => exact .nil _
  | cons op ops ih =>
      have further := ih fun other member => keeps other (List.mem_cons_of_mem op member)
      have here := keeps op List.mem_cons_self
      cases op with
      | indent => cases here
      | dedent => cases here
      | append text => exact .append inBody text further
      | newLine => exact .newLine inBody further

end Cue

/-! ## A pen that is given cues -/

namespace Pen

/-- At depth one for bodies and zero elsewhere, the margin is the unit or nothing. -/
theorem putAll_strokes (pen : Pen) (inBody : Bool) (level : pen.depth = inBody.toNat)
    (chars : List Char) :
    (pen.putAll chars).text = pen.text ++
      Stroke.decorate pen.unit pen.last (chars.map fun char => { char, inBody }) := by
  induction chars generalizing pen with
  | nil => exact String.append_empty.symm
  | cons c chars ih =>
      have margin : pen.marginBefore c =
          if pen.last.all (· = '\n') ∧ c ≠ '\n' ∧ inBody then pen.unit else "" := by
        rw [Pen.marginBefore, Pen.margin, Pen.atLineStart, level]
        cases inBody <;> simp [and_comm]
      rw [Pen.putAll_cons, ih (pen.put c) level, List.map_cons, Stroke.decorate, ← margin]
      simp only [Pen.put, String.append_assoc]

/-- A pen at the depth of a cue adds the strokes for it. -/
theorem perform_strokes (pen : Pen) (cue : Cue) (keeps : cue.op.keepsDepth)
    (level : pen.depth = cue.inBody.toNat) :
    pen.perform cue.op =
      { pen with
        text := pen.text ++ Stroke.decorate pen.unit pen.last (cue.ownStrokes pen.last)
        last := Stroke.lastAfter pen.last (cue.ownStrokes pen.last) } := by
  obtain ⟨op, inBody⟩ := cue
  cases op with
  | indent => cases keeps
  | dedent => cases keeps
  | append text =>
      have last : text.toList.getLast?.or pen.last =
          Stroke.lastAfter pen.last (text.toList.map fun char => { char, inBody }) := by
        rw [Stroke.lastAfter, List.getLast?_map, Option.map_map]
        simp [Function.comp_def]
      have written := putAll_strokes pen inBody level text.toList
      rw [Pen.putAll_eq] at written
      rw [Pen.perform, Pen.putAll_eq, last]
      exact congrArg (Pen.mk · pen.unit pen.depth _) written
  | newLine =>
      have written := putAll_strokes pen inBody level ['\n']
      rw [Pen.perform, Pen.atLineStart, Cue.ownStrokes]
      cases start : pen.last.all (· = '\n') with
      | true => simp [Stroke.decorate, Stroke.lastAfter]
      | false => exact congrArg (Pen.mk · pen.unit pen.depth (some '\n')) written

/-- A pen that is given cues adds their strokes and comes to the depth to which they lead. -/
theorem performAll_strokes {before after : Nat} {cues : List Cue}
    (leads : Cue.Leads before cues after) (pen : Pen) (deep : pen.depth = before) :
    (pen.performAll (cues.map Cue.op)).text =
        pen.text ++ Stroke.decorate pen.unit pen.last (Cue.strokes pen.last cues) ∧
      (pen.performAll (cues.map Cue.op)).depth = after := by
  induction leads generalizing pen with
  | nil depth => exact ⟨String.append_empty.symm, deep⟩
  | indent _ ih => exact ih { pen with depth := pen.depth + 1 } (congrArg (· + 1) deep)
  | dedent _ ih => exact ih { pen with depth := pen.depth - 1 } (congrArg (· - 1) deep)
  | append inBody text _ ih =>
      have here := perform_strokes pen { op := .append text, inBody } rfl deep
      obtain ⟨written, reached⟩ := ih (pen.perform (.append text)) (by rw [here, deep])
      refine ⟨written.trans ?_, reached⟩
      rw [here, Cue.strokes, Stroke.decorate_append, String.append_assoc]
  | newLine inBody _ ih =>
      have here := perform_strokes pen { op := .newLine, inBody } rfl deep
      obtain ⟨written, reached⟩ := ih (pen.perform .newLine) (by rw [here, deep])
      refine ⟨written.trans ?_, reached⟩
      rw [here, Cue.strokes, Stroke.decorate_append, String.append_assoc]

end Pen

/-! ## The cues of a program -/

theorem Emission.ops_op (op : SinkOp) : (Emission.op op : Emission α).ops = [op] :=
  rfl

theorem Emission.ops_text (text : String) :
    (Emission.text text : Emission α).ops = [.append text] :=
  rfl

/-- Work without a fault is followed by more work. -/
theorem Emission.ops_append {first second : Emission α} (complete : first.fault = none) :
    (first ++ second).ops = first.ops ++ second.ops := by
  obtain ⟨ops, fault⟩ := first
  cases complete
  rfl

/-- Of two emissions one after the other, both are complete if the whole is. -/
theorem Emission.append_of_complete {first second : Emission α}
    (complete : (first ++ second).fault = none) :
    first.fault = none ∧ second.fault = none ∧
      (first ++ second).ops = first.ops ++ second.ops := by
  rw [Emission.fault_append, Option.or_eq_none_iff] at complete
  exact ⟨complete.1, complete.2, Emission.ops_append complete.1⟩

/-- All operations of work in two pieces are those of one or the other. -/
theorem Emission.mem_ops_append {first second : Emission α} {op : SinkOp}
    (member : op ∈ (first ++ second).ops) : op ∈ first.ops ∨ op ∈ second.ops := by
  obtain ⟨ops, fault⟩ := first
  cases fault with
  | none => exact List.mem_append.mp member
  | some located => exact .inl member

/-- An emission that stays at one depth. -/
def Emission.KeepsDepth (emission : Emission α) : Prop :=
  ∀ op ∈ emission.ops, op.keepsDepth

theorem Emission.KeepsDepth.append {first second : Emission α} (keeps : first.KeepsDepth)
    (keepsToo : second.KeepsDepth) : (first ++ second).KeepsDepth := by
  intro op member
  obtain here | later := Emission.mem_ops_append member
  · exact keeps op here
  · exact keepsToo op later

theorem Emission.keepsDepth_op {op : SinkOp} (keeps : op.keepsDepth) :
    (Emission.op op : Emission α).KeepsDepth := by
  intro other member
  rw [List.mem_singleton.mp member]
  exact keeps

theorem Emission.keepsDepth_text (text : String) : (Emission.text text : Emission α).KeepsDepth :=
  Emission.keepsDepth_op rfl

theorem Emission.keepsDepth_fail (loc : α) (cause : TreeFault) :
    (Emission.fail loc cause).KeepsDepth :=
  nofun

mutual

/-- Below the top level nothing changes the depth. -/
theorem Node.keepsDepth_emission : ∀ node : Node α, node.emission.KeepsDepth
  | .binary op lhs rhs _ => by
      rw [Node.emission]
      exact ((((Node.keepsDepth_emission lhs).append (Emission.keepsDepth_text _)).append
        (Emission.keepsDepth_text _)).append (Emission.keepsDepth_text _)).append
          (Node.keepsDepth_emission rhs)
  | .literal value _ => Emission.keepsDepth_text _
  | .varDef name type value loc => by
      rw [Node.emission]
      cases type.cVariable with
      | ok spelling =>
          exact ((Emission.keepsDepth_text _).append (Node.keepsDepth_emission value)).append
            (Emission.keepsDepth_text _)
      | error cause => exact Emission.keepsDepth_fail _ _
  | .funcDef _ _ _ _ => Emission.keepsDepth_fail _ _
  | .scope inner => Scope.keepsDepth_emission inner

/-- The work of what stands within a function never changes the depth. -/
theorem Scope.keepsDepth_emission : ∀ scope : Scope α, scope.emission.KeepsDepth
  | ⟨.block, statements, _⟩ => Scope.keepsDepth_emissionOfAll statements
  | ⟨.global, _, _⟩ => Emission.keepsDepth_fail _ _

theorem Scope.keepsDepth_emissionOfAll :
    ∀ nodes : List (Node α), (Scope.emissionOfAll nodes).KeepsDepth
  | [] => nofun
  | node :: nodes => by
      rw [Scope.emissionOfAll]
      exact ((Node.keepsDepth_emission node).append (Emission.keepsDepth_op rfl)).append
        (Scope.keepsDepth_emissionOfAll nodes)

end

/-- The work for a node at the top level, with a note of what is for the body of a function. -/
def Node.cues : Node α → List Cue
  | .funcDef name returnType body _ =>
    match returnType.cReturn with
    | .ok spelling =>
      Cue.outside [.newLine, .append spelling, .append (" " ++ name ++ "() \x7b\n"), .indent] ++
        Cue.inside body.emission.ops ++ Cue.outside [.dedent, .newLine, .append "\x7d\n"]
    | .error _ => []
  | node => Cue.outside node.emission.ops

/-- The work for the nodes at the top level, with a note of what is for the body of a function. -/
def Scope.cuesOfAll (nodes : List (Node α)) : List Cue :=
  nodes.flatMap fun node => node.cues ++ [{ op := .newLine, inBody := false }]

/-- The work for a whole program, with a note of what is for the body of a function. -/
def Scope.cues (root : Scope α) : List Cue :=
  Scope.cuesOfAll root.statements

/-- The characters of the C text of a program, with a note of what is for the body of a function. -/
def Scope.strokes (root : Scope α) : List Stroke :=
  Cue.strokes none root.cues

theorem Cue.map_outside (ops : List SinkOp) : (Cue.outside ops).map Cue.op = ops := by
  rw [Cue.outside, List.map_map]
  exact List.map_id ops

theorem Cue.map_inside (ops : List SinkOp) : (Cue.inside ops).map Cue.op = ops := by
  rw [Cue.inside, List.map_map]
  exact List.map_id ops

/-- The cues of a node are its emission. -/
theorem Node.map_cues {node : Node α} (complete : node.topEmission.fault = none) :
    node.cues.map Cue.op = node.topEmission.ops := by
  cases node with
  | funcDef name returnType body loc =>
      rw [Node.topEmission, Node.functionEmission] at complete ⊢
      rw [Node.cues]
      cases spelled : returnType.cReturn with
      | error cause =>
          rw [spelled] at complete
          cases complete
      | ok spelling =>
          rw [spelled] at complete
          simp only [Emission.fault_append, Emission.fault_op, Emission.fault_text, Option.none_or,
            Option.or_none] at complete
          rw [List.map_append, List.map_append, Cue.map_outside, Cue.map_outside, Cue.map_inside]
          simp only [Emission.ops_append, Emission.fault_append, Emission.fault_op,
            Emission.fault_text, Option.none_or, complete, Emission.ops_op, Emission.ops_text,
            List.append_assoc, List.cons_append, List.nil_append]
          rfl
  | binary op lhs rhs loc => exact Cue.map_outside _
  | literal value loc => exact Cue.map_outside _
  | varDef name type value loc => exact Cue.map_outside _
  | scope inner => exact Cue.map_outside _

/-- The cues of the statements of a program are its work, operation by operation. -/
theorem Scope.map_cuesOfAll {nodes : List (Node α)}
    (complete : (Scope.topEmission nodes).fault = none) :
    (Scope.cuesOfAll nodes).map Cue.op = (Scope.topEmission nodes).ops := by
  induction nodes with
  | nil => rfl
  | cons node nodes ih =>
      rw [Scope.topEmission] at complete ⊢
      obtain ⟨completeHere, completeLater, joined⟩ := Emission.append_of_complete complete
      obtain ⟨completeNode, _, joinedHere⟩ := Emission.append_of_complete completeHere
      have later : Scope.cuesOfAll (node :: nodes) =
          node.cues ++ [{ op := .newLine, inBody := false }] ++ Scope.cuesOfAll nodes := rfl
      rw [joined, joinedHere, later, List.map_append, List.map_append, Node.map_cues completeNode,
        ih completeLater]
      rfl

/-- A node at the top level leads back to depth zero. -/
theorem Node.leads_cues (node : Node α) : Cue.Leads 0 node.cues 0 := by
  cases node with
  | funcDef name returnType body loc =>
      rw [Node.cues]
      cases returnType.cReturn with
      | error cause => exact .nil 0
      | ok spelling =>
          have opens : Cue.Leads 0 (Cue.outside
              [.newLine, .append spelling, .append (" " ++ name ++ "() \x7b\n"), .indent]) 1 :=
            .newLine false (.append false _ (.append false _ (.indent (.nil 1))))
          have closes : Cue.Leads 1 (Cue.outside [.dedent, .newLine, .append "\x7d\n"]) 0 :=
            .dedent (.newLine false (.append false _ (.nil 0)))
          exact (opens.trans (Cue.leads_of_keepsDepth (Scope.keepsDepth_emission body) true)).trans
            closes
  | binary op lhs rhs loc => exact Cue.leads_of_keepsDepth (Node.keepsDepth_emission _) false
  | literal value loc => exact Cue.leads_of_keepsDepth (Node.keepsDepth_emission _) false
  | varDef name type value loc => exact Cue.leads_of_keepsDepth (Node.keepsDepth_emission _) false
  | scope inner => exact Cue.leads_of_keepsDepth (Node.keepsDepth_emission _) false

/-- After each statement of a program, the depth is back at zero. -/
theorem Scope.leads_cuesOfAll (nodes : List (Node α)) :
    Cue.Leads 0 (Scope.cuesOfAll nodes) 0 := by
  induction nodes with
  | nil => exact .nil 0
  | cons node nodes ih =>
      exact ((Node.leads_cues node).trans (.newLine false (.nil 0))).trans ih

/-- The strokes of a program end in a line feed, if there are any. -/
theorem Scope.lastAfter_strokes (root : Scope α) :
    (Stroke.lastAfter none root.strokes).all (· = '\n') := by
  rw [Scope.strokes, Scope.cues]
  induction root.statements using List.reverseRecOn with
  | nil => rfl
  | append_singleton nodes node _ =>
      have final : Scope.cuesOfAll (nodes ++ [node]) =
          Scope.cuesOfAll nodes ++ node.cues ++ [{ op := .newLine, inBody := false }] := by
        rw [Scope.cuesOfAll, List.flatMap_append, List.append_assoc]
        simp [Scope.cuesOfAll]
      rw [final]
      exact Cue.lastAfter_newLine _ _ _

/-! ## The C text with any unit -/

/-- A pen writes the C text of a program. -/
theorem Scope.cText_eq_pen {root : Scope Span} (complete : root.programEmission.fault = none)
    (unit : String) :
    root.cText unit = .ok (({ unit } : Pen).performAll root.programEmission.ops).text := by
  obtain ⟨sink, performed, pen⟩ :=
    Sink.performAll_pen ({ out := "", unit } : Sink String) root.programEmission.ops
  rw [Scope.cText, Scope.write, performed, complete]
  exact congrArg (fun pen => Except.ok pen.text) pen

/-- **The indent unit only decorates.** With any two units a program either has a C text or the same
error. If it has one, the text without a unit is empty or ends in a line feed, and it consists of
the strokes of the program, which say of each character whether it is written for the body of a
function. These make up lines, none of which depends on the unit. The text with any unit is that of
these lines, with the unit once before each that is not empty and has a first character written for
a body. After each statement of the program, the sink is at depth zero. -/
theorem Scope.cText_indent_unit (root : Scope Span) :
    (∀ unit unit' : String,
      (∃ text text', root.cText unit = .ok text ∧ root.cText unit' = .ok text') ∨
        ∃ error, root.cText unit = .error error ∧ root.cText unit' = .error error) ∧
    ∀ text, root.cText "" = .ok text →
      (text = "" ∨ text.toList.getLast? = some '\n') ∧
      root.cues.map Cue.op = root.programEmission.ops ∧
      text = String.ofList (root.strokes.map Stroke.char) ∧
      (Stroke.lines root.strokes).flatten = root.strokes ∧
      (∀ line ∈ Stroke.lines root.strokes, Stroke.IsLine line) ∧
      (∀ unit, root.cText unit =
        .ok (String.join ((Stroke.lines root.strokes).map (Stroke.lineText unit)))) ∧
      ∀ (unit : String) (done later : List (Node Span)), root.statements = done ++ later →
        ∃ sink, ({ out := "", unit } : Sink String).performAll (Scope.topEmission done).ops =
          .taken sink ∧ sink.depth = 0 := by
  constructor
  · intro unit unit'
    rw [Scope.cText_eq, Scope.cText_eq]
    cases root.programEmission.fault with
    | none => exact .inl ⟨_, _, rfl, rfl⟩
    | some fault => exact .inr ⟨_, rfl, rfl⟩
  · intro text written
    have complete : root.programEmission.fault = none := by
      rw [Scope.cText_eq] at written
      cases fault : root.programEmission.fault with
      | none => rfl
      | some located =>
          rw [fault] at written
          cases written
    have global : root.kind = .global := ((Scope.fault_eq_none_iff root).mp complete).global
    have emission := Scope.programEmission_global global
    have completeTop : (Scope.topEmission root.statements).fault = none := emission ▸ complete
    have ops : root.cues.map Cue.op = root.programEmission.ops := by
      rw [emission, Scope.cues, Scope.map_cuesOfAll completeTop]
    have decorated (unit : String) :
        root.cText unit = .ok (Stroke.decorate unit none root.strokes) := by
      have run := Pen.performAll_strokes (Scope.leads_cuesOfAll root.statements) { unit } rfl
      rw [Scope.cText_eq_pen complete, ← ops]
      exact congrArg Except.ok (run.1.trans String.empty_append)
    have plain : text = String.ofList (root.strokes.map Stroke.char) := by
      rw [decorated, Stroke.decorate_empty] at written
      exact (Except.ok.inj written).symm
    have ends := root.lastAfter_strokes
    have areLines := Stroke.isLine_of_mem_lines ends
    refine ⟨?_, ops, plain, Stroke.flatten_lines _, areLines, ?_, ?_⟩
    · rw [plain, String.toList_ofList, List.getLast?_map]
      rw [Stroke.lastAfter] at ends
      cases final : root.strokes.getLast? with
      | none =>
          rw [List.getLast?_eq_none_iff.mp final]
          exact .inl rfl
      | some stroke =>
          rw [final] at ends
          exact .inr (congrArg some (of_decide_eq_true ends))
    · intro unit
      have fresh : (none : Option Char).all (· = '\n') := rfl
      rw [decorated, ← Stroke.decorate_lines unit fresh areLines, Stroke.flatten_lines]
    · intro unit done later split
      rw [split, Scope.topEmission_append] at completeTop
      have completeDone := (Emission.append_of_complete completeTop).1
      obtain ⟨sink, performed, pen⟩ :=
        Sink.performAll_pen ({ out := "", unit } : Sink String) (Scope.topEmission done).ops
      refine ⟨sink, performed, ?_⟩
      have run := Pen.performAll_strokes (Scope.leads_cuesOfAll done) { unit } rfl
      rw [Scope.map_cuesOfAll completeDone] at run
      exact (congrArg Pen.depth pen).trans run.2

/-- A variable outside of functions, and in a function a name of three lines and a variable in two
blocks. -/
def Scope.sampleDeep : Scope Span :=
  let loc := Span.sampleAt 0
  let one (name : String) : Node Span := .varDef name .i32 (.literal 1 loc) loc
  let inner : Scope Span := ⟨.block, [.scope ⟨.block, [one "c"], loc⟩], loc⟩
  ⟨.global, [one "a", .funcDef "f" .i32 ⟨.block, [one "b\n\nb", .scope inner], loc⟩ loc], loc⟩

/-- Only what is not empty and starts in the body gets the unit, and it gets it once. -/
theorem Scope.cText_sampleDeep :
    Scope.sampleDeep.cText "" =
        .ok "const int a = 1;\nint f() \x7b\nconst int b\n\nb = 1;\nconst int c = 1;\n\x7d\n" ∧
      Scope.sampleDeep.cText "\n>" =
        .ok ("const int a = 1;\nint f() \x7b\n\n>const int b\n\n\n>b = 1;\n" ++
          "\n>const int c = 1;\n\x7d\n") := by
  have plain : Scope.sampleDeep.cText "" =
      .ok "const int a = 1;\nint f() \x7b\nconst int b\n\nb = 1;\nconst int c = 1;\n\x7d\n" := by
    rw [Scope.cText_eq_pen rfl]
    decide +kernel
  obtain ⟨_, _, _, _, _, decorated, _⟩ := (Scope.cText_indent_unit Scope.sampleDeep).2 _ plain
  refine ⟨plain, ?_⟩
  rw [decorated]
  decide +kernel

end NcLang
