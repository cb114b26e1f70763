import NcLang.Proofs.Renderings
import NcLang.Proofs.Streaming

/-! # Trees printed to a device

The routines that print a tree can write to a device as they go, from one line to the next and from
one depth to the next, and stop at the first write that fails. Whatever they are about to print, the
device gets the beginning of that text for which it has room (`Printer.Prints`). A program is
therefore printed to a device as far as the device goes, in the order of the text in memory, and the
device is never flushed (`Scope.printTo_eq_prefix`).
-/

namespace NcLang

variable {α : Type}

/-! ## Printers -/

/-- A routine that writes to a device. It ends with the error that stopped it, if there was one. -/
def Printer : Type :=
  Stream → Stream × Option IoError

namespace Printer

/-- Writes pieces of text one after the other. -/
def write (pieces : List String) : Printer :=
  fun stream => stream.writePieces pieces

/-- Writes the blanks in front of a line, one by one. -/
def blanks (depth : Nat) : Printer :=
  write (List.replicate (4 * depth) " ")

/-- Does one thing and then another, unless the first is stopped. -/
def followedBy (first next : Printer) : Printer := fun stream =>
  match first stream with
  | (printed, none) => next printed
  | (printed, some error) => (printed, some error)

/-- A printer that delivers a text to every device. -/
def Prints (printer : Printer) (text : String) : Prop :=
  ∀ stream : Stream, stream.device.Steady →
    stream.Delivered (Text.bytes text) (printer stream).1 (printer stream).2

theorem prints_write (pieces : List String) : (write pieces).Prints (String.join pieces) := by
  intro stream steady
  obtain ⟨next, error, delivered, reply⟩ := StreamText.writeAll_delivered stream steady pieces
  have written : stream.writePieces pieces = (next, error) := by
    rw [Stream.writePieces, reply]
    cases error with
    | none => rfl
    | some fault => rfl
  rw [write, written]
  exact delivered

theorem prints_blanks (depth : Nat) : (blanks depth).Prints (Outline.margin depth) := by
  have margin : String.join (List.replicate (4 * depth) " ") = Outline.margin depth := by
    rw [Outline.margin]
    generalize 4 * depth = count
    induction count with
    | zero => rfl
    | succ count ih =>
        apply String.toList_injective
        rw [List.replicate_succ, String.join_cons, ih, List.replicate_succ, String.toList_append,
          String.toList_ofList, String.toList_ofList, String.toList_ofList]
        rfl
  rw [← margin]
  exact prints_write _

/-- What is delivered after a text is delivered together with it, and nothing is if the device was
full before. -/
theorem Prints.followedBy {first next : Printer} {before after : String}
    (printsFirst : first.Prints before) (printsNext : next.Prints after) :
    (first.followedBy next).Prints (before ++ after) := by
  intro stream steady
  have delivered := printsFirst stream steady
  rw [Printer.followedBy, Text.bytes_append]
  generalize first stream = done at delivered
  obtain ⟨between, error⟩ := done
  cases error with
  | none =>
      have further := printsNext between (delivered.took.device ▸ steady)
      exact delivered.append further
  | some fault => exact delivered.full (Text.bytes after)

end Printer

/-! ## The routines that print trees -/

mutual

/-- Prints a node on a device: its header on the current line, and its fields one level deeper. -/
def Node.printOn (depth : Nat) (node : Node α) : Printer :=
  (Printer.write [node.typeName, " - ", node.tag.name, "\n"]).followedBy
    (Field.printEntriesOn (depth + 1) node.fields)
termination_by (sizeOf node.outline, 0)
decreasing_by
  apply Prod.Lex.left
  rw [node.outline_eq]
  simp +arith

/-- Prints a field on a device from the current line on. -/
def Field.printOn (depth : Nat) : Field α → Printer
  | .node inner => inner.printOn depth
  | .scope inner =>
    (Printer.write [Scope.typeName ++ " - ", inner.tag.name, "\n"]).followedBy
      (Field.printEntriesOn (depth + 1) inner.fields)
  | .list [] => .write ["[]\n"]
  | .list (item :: items) =>
    (Printer.write ["[\n"]).followedBy <|
      (Field.printItemsOn (depth + 1) (item :: items)).followedBy <|
        (Printer.blanks depth).followedBy (.write ["]\n"])
  | .map [] => .write ["\x7b\x7d\n"]
  | .map (entry :: entries) =>
    (Printer.write ["\x7b\n"]).followedBy <|
      (Field.printEntriesOn (depth + 1) (entry :: entries)).followedBy <|
        (Printer.blanks depth).followedBy (.write ["\x7d\n"])
  | .value text => .write [text, "\n"]
termination_by field => (sizeOf field.outline, 1)
decreasing_by
  · apply Prod.Lex.right
    decide
  · apply Prod.Lex.left
    rw [Field.outline, inner.outline_eq]
    simp +arith
  · apply Prod.Lex.left
    rw [Field.outline]
    simp +arith
  · apply Prod.Lex.left
    rw [Field.outline]
    simp +arith

/-- Prints each item on a device, on lines of its own, at the depth. -/
def Field.printItemsOn (depth : Nat) : List (Field α) → Printer
  | [] => .write []
  | item :: items =>
    (Printer.blanks depth).followedBy <|
      (item.printOn depth).followedBy (Field.printItemsOn depth items)
termination_by items => (sizeOf (Field.outlines items), 0)
decreasing_by
  · apply Prod.Lex.left
    rw [Field.outlines]
    simp +arith
  · apply Prod.Lex.left
    rw [Field.outlines]
    simp +arith

/-- Prints each entry on a device after its key, on lines of its own, at the depth. -/
def Field.printEntriesOn (depth : Nat) : List (String × Field α) → Printer
  | [] => .write []
  | (key, inner) :: entries =>
    (Printer.blanks depth).followedBy <| (Printer.write [key, ": "]).followedBy <|
      (inner.printOn depth).followedBy (Field.printEntriesOn depth entries)
termination_by entries => (sizeOf (Field.outlinesOfEntries entries), 0)
decreasing_by
  · apply Prod.Lex.left
    rw [Field.outlinesOfEntries]
    simp +arith
  · apply Prod.Lex.left
    rw [Field.outlinesOfEntries]
    simp +arith

end

/-- Prints a program on a device as a tree. -/
def Scope.printTreeOn (root : Scope α) : Printer :=
  (Printer.write [Scope.typeName ++ " - ", root.tag.name, "\n"]).followedBy
    (Field.printEntriesOn 1 root.fields)

namespace Field

open Printer (Prints prints_write prints_blanks)

/-- The routines that print on a device deliver what they print in memory. -/
theorem prints_print :
    (∀ (depth : Nat) (node : Node α), (node.printOn depth).Prints (node.print depth)) ∧
      (∀ (depth : Nat) (entries : List (String × Field α)),
        (printEntriesOn depth entries).Prints (printEntries depth entries)) ∧
      (∀ (depth : Nat) (field : Field α), (field.printOn depth).Prints (field.print depth)) ∧
      ∀ (depth : Nat) (items : List (Field α)),
        (printItemsOn depth items).Prints (printItems depth items) := by
  -- The induction follows the calls of the routines; each case puts the texts of its writes
  -- together and compares them with the text in memory.
  apply Node.printOn.mutual_induct
  case case1 =>
    intro depth node fields
    have whole := (prints_write [node.typeName, " - ", node.tag.name, "\n"]).followedBy fields
    rw [Node.printOn, Node.print]
    simpa only [String.join_cons, String.join_nil, String.append_empty, String.append_assoc]
      using whole
  case case2 =>
    intro depth
    rw [printEntriesOn, printEntries]
    exact prints_write []
  case case3 =>
    intro depth key inner entries here further
    have whole := (prints_blanks depth).followedBy <|
      (prints_write [key, ": "]).followedBy (here.followedBy further)
    rw [printEntriesOn, printEntries]
    simpa only [String.join_cons, String.join_nil, String.append_empty, String.append_assoc]
      using whole
  case case4 =>
    intro depth inner printed
    rw [Field.printOn, Field.print]
    exact printed
  case case5 =>
    intro depth inner fields
    have whole := (prints_write [Scope.typeName ++ " - ", inner.tag.name, "\n"]).followedBy fields
    rw [Field.printOn, Field.print]
    simpa only [String.join_cons, String.join_nil, String.append_empty, String.append_assoc]
      using whole
  case case6 =>
    intro depth
    rw [Field.printOn, Field.print]
    exact prints_write ["[]\n"]
  case case7 =>
    intro depth item items inside
    have whole := (prints_write ["[\n"]).followedBy <|
      inside.followedBy ((prints_blanks depth).followedBy (prints_write ["]\n"]))
    rw [Field.printOn, Field.print]
    simpa only [String.join_cons, String.join_nil, String.append_empty, String.append_assoc]
      using whole
  case case8 =>
    intro depth
    rw [Field.printOn, Field.print]
    exact prints_write ["\x7b\x7d\n"]
  case case9 =>
    intro depth entry entries inside
    have whole := (prints_write ["\x7b\n"]).followedBy <|
      inside.followedBy ((prints_blanks depth).followedBy (prints_write ["\x7d\n"]))
    rw [Field.printOn, Field.print]
    simpa only [String.join_cons, String.join_nil, String.append_empty, String.append_assoc]
      using whole
  case case10 =>
    intro depth text
    rw [Field.printOn, Field.print]
    exact prints_write [text, "\n"]
  case case11 =>
    intro depth
    rw [printItemsOn, printItems]
    exact prints_write []
  case case12 =>
    intro depth item items here further
    have whole := (prints_blanks depth).followedBy (here.followedBy further)
    rw [printItemsOn, printItems]
    simpa only [String.append_assoc] using whole

end Field

theorem Scope.prints_printTreeOn (root : Scope α) : root.printTreeOn.Prints root.printTree := by
  have whole := (Printer.prints_write [Scope.typeName ++ " - ", root.tag.name, "\n"]).followedBy
    (Field.prints_print.2.1 1 root.fields)
  rw [Scope.printTreeOn, Scope.printTree]
  simpa only [String.join_cons, String.join_nil, String.append_empty, String.append_assoc]
    using whole

/-! ## Programs -/

/-- The program without functions. -/
def Scope.sampleEmpty : Scope Span :=
  ⟨.global, [], Pos.emptySpan (Pos.origin { text := "", path := "" })⟩

/-- A device that takes twenty-six bytes, at most three at a time, with interruptions. -/
def Device.sampleShort : Device where
  capacity := some 26
  chunk := fun _ => some 3
  interruptions := Device.everyNth 2
  refusal := some { kind := .brokenPipe, text := "broken pipe" }

end NcLang
