import NcLang.Proofs.Margins
import NcLang.Proofs.Renderings

/-! # Trees at a depth

An outline whose texts stand on one line each is printed at any depth as it is printed at depth
zero, with four blanks for each level before every line but the first (`Outline.InLines.print_eq`).
The texts of legible outlines stand on one line. Nothing is therefore asked of nodes, whatever names
they have, and fields are asked for values and keys without line feeds (`Field.print?_relative`).
That is so at all depths at which no margin is too wide. At others nothing is printed, or, where
overflow goes unnoticed, possibly a tree at a wrong depth (`Field.print?_sampleItem_eq_none`).
-/

namespace NcLang

variable {α : Type}

/-! ## Margins before lines -/

namespace Text

/-- A text with a margin before each line, where the first character begins a line or not. -/
def indentFrom (margin : List Char) (fresh : Bool) : List Char → List Char
  | [] => []
  | c :: chars => (if fresh then margin else []) ++ c :: indentFrom margin (c = '\n') chars

/-- A text with a margin at the beginning of each line but the first. -/
def indentFurther (margin text : String) : String :=
  String.ofList (indentFrom margin.toList false text.toList)

/-- Whether a character after some others begins a line. -/
def freshAfter (fresh : Bool) (chars : List Char) : Bool :=
  chars.getLast?.elim fresh (· = '\n')

theorem freshAfter_cons (fresh : Bool) (c : Char) (chars : List Char) :
    freshAfter fresh (c :: chars) = freshAfter (c = '\n') chars := by
  rw [freshAfter, freshAfter, List.getLast?_cons]
  cases chars.getLast? with
  | none => rfl
  | some last => rfl

/-- A text and the same text with a margin before each line. It goes on with a line or begins one,
and so does what follows it. -/
structure Shifted (margin : List Char) (before : Bool) (chars shifted : List Char) (after : Bool) :
    Prop where
  eq : indentFrom margin before chars = shifted
  fresh : freshAfter before chars = after

variable {margin chars chars' shifted shifted' : List Char} {before between after : Bool}

theorem Shifted.nil : Shifted margin before [] [] before :=
  ⟨rfl, rfl⟩

/-- Texts that follow each other are shifted one after the other. -/
theorem Shifted.append (first : Shifted margin before chars shifted between)
    (second : Shifted margin between chars' shifted' after) :
    Shifted margin before (chars ++ chars') (shifted ++ shifted') after := by
  obtain ⟨rfl, rfl⟩ := first
  induction chars generalizing before with
  | nil => exact second
  | cons c chars ih =>
      rw [freshAfter_cons] at second
      obtain ⟨eq, fresh⟩ := ih second
      refine ⟨?_, (freshAfter_cons ..).trans fresh⟩
      rw [List.cons_append, indentFrom, indentFrom, eq, List.append_assoc]
      rfl

/-- Within a line, nothing is shifted up to its end. -/
theorem shifted_oneLine (oneLine : chars.all (· ≠ '\n')) :
    Shifted margin false chars chars false := by
  induction chars with
  | nil => exact .nil
  | cons c chars ih =>
      rw [List.all_cons, Bool.and_eq_true, decide_eq_true_eq] at oneLine
      obtain ⟨eq, fresh⟩ := ih oneLine.2
      refine ⟨?_, ?_⟩
      · rw [indentFrom, decide_eq_false oneLine.1, eq]
        rfl
      · rw [freshAfter_cons, decide_eq_false oneLine.1, fresh]

theorem shifted_feed : Shifted margin false ['\n'] ['\n'] true :=
  ⟨rfl, rfl⟩

/-- A text with something in it has the margin in front if it begins a line. -/
theorem Shifted.begin (nonempty : chars ≠ []) (inLine : Shifted margin false chars shifted after) :
    Shifted margin true chars (margin ++ shifted) after := by
  obtain ⟨rfl, rfl⟩ := inLine
  cases chars with
  | nil => exact (nonempty rfl).elim
  | cons c chars => exact ⟨rfl, (freshAfter_cons ..).trans (freshAfter_cons ..).symm⟩

theorem Shifted.ne_nil (inLine : Shifted margin false chars shifted true) : chars ≠ [] := by
  rintro rfl
  cases inLine.fresh

end Text

/-! ## Outlines at a depth -/

namespace Outline

open Text (Shifted shifted_oneLine shifted_feed isOneLine)

/-- An outline none of whose texts has a line feed in it. -/
inductive InLines : Outline → Prop
  | value {text : String} (oneLine : isOneLine text) : InLines (.value text)
  | list {items : List Outline} (each : ∀ item ∈ items, InLines item) : InLines (.list items)
  | map {entries : List (String × Outline)} (keys : ∀ entry ∈ entries, isOneLine entry.1)
      (each : ∀ entry ∈ entries, InLines entry.2) : InLines (.map entries)
  | record {typeName tag : String} {fields : List (String × Outline)}
      (title : isOneLine typeName) (word : isOneLine tag)
      (keys : ∀ field ∈ fields, isOneLine field.1) (each : ∀ field ∈ fields, InLines field.2) :
      InLines (.record typeName tag fields)

theorem isOneLine_margin (depth : Nat) : isOneLine (margin depth) := by
  rw [isOneLine, margin, String.toList_ofList, List.all_eq_true]
  intro c member
  rw [List.eq_of_mem_replicate member]
  decide

section Shift

variable {β : Type} {shows shows' : β → List Char} {xs : List β} {further : Nat}

/-- A line that starts at a depth starts deeper by the levels by which it is shifted. -/
theorem shifted_line (depth : Nat) {line shifted : List Char}
    (inLine : Shifted (margin further).toList false line shifted true) :
    Shifted (margin further).toList true ((margin depth).toList ++ line)
      ((margin (further + depth)).toList ++ shifted) true := by
  have whole := (shifted_oneLine (isOneLine_margin depth)).append inLine
  rw [toList_margin_add, List.append_assoc]
  exact whole.begin (List.append_ne_nil_of_right_ne_nil _ inLine.ne_nil)

/-- Things on lines of their own are shifted as a whole if each of them is. -/
theorem shifted_row (depth : Nat)
    (each : ∀ x ∈ xs, Shifted (margin further).toList false (shows x) (shows' x) true) :
    Shifted (margin further).toList true (row (margin depth).toList shows xs)
      (row (margin (further + depth)).toList shows' xs) true := by
  induction xs with
  | nil => exact .nil
  | cons x xs ih =>
      rw [List.forall_mem_cons] at each
      rw [row_cons, row_cons, ← List.append_assoc, ← List.append_assoc]
      exact (shifted_line depth each.1).append (ih each.2)

/-- So are things in brackets, with the line of the closing bracket. -/
theorem shifted_bracketed (depth : Nat) {close : Char} (inLine : close ≠ '\n')
    (each : ∀ x ∈ xs, Shifted (margin further).toList false (shows x) (shows' x) true) :
    Shifted (margin further).toList false (bracketed depth close shows xs)
      (bracketed (further + depth) close shows' xs) true := by
  have closing : Shifted (margin further).toList false [close, '\n'] [close, '\n'] true := by
    have bracket : [close].all (· ≠ '\n') := by simp [inLine]
    exact (shifted_oneLine bracket).append shifted_feed
  cases xs with
  | nil => exact closing
  | cons x xs =>
      exact shifted_feed.append
        ((shifted_row (depth + 1) each).append (shifted_line depth closing))

/-- An entry is shifted if what stands under its key is. -/
theorem shifted_labelled {shows shows' : Outline → List Char} {entries : List (String × Outline)}
    (keys : ∀ entry ∈ entries, isOneLine entry.1)
    (each : ∀ entry ∈ entries,
      Shifted (margin further).toList false (shows entry.2) (shows' entry.2) true) :
    ∀ entry ∈ entries, Shifted (margin further).toList false
      (labelled ": ".toList shows entry) (labelled ": ".toList shows' entry) true := by
  intro entry member
  have mark : Shifted (margin further).toList false ": ".toList ": ".toList false := ⟨rfl, rfl⟩
  exact (shifted_oneLine (keys entry member)).append (mark.append (each entry member))

end Shift

/-- The tree of an outline at a depth is shifted to the tree at a greater depth. -/
theorem InLines.shifted {outline : Outline} (inLines : outline.InLines) (further depth : Nat) :
    Shifted (margin further).toList false (outline.inTree depth)
      (outline.inTree (further + depth)) true := by
  induction inLines generalizing depth with
  | value oneLine =>
      rw [inTree_value, inTree_value]
      exact (shifted_oneLine oneLine).append shifted_feed
  | list each ih =>
      have opening : Shifted (margin further).toList false ['['] ['['] false := ⟨rfl, rfl⟩
      have inside := shifted_bracketed depth (by decide : ']' ≠ '\n') fun item member =>
        ih item member (depth + 1)
      rw [inTree_list, inTree_list]
      exact opening.append inside
  | map keys each ih =>
      have opening : Shifted (margin further).toList false ['\x7b'] ['\x7b'] false := ⟨rfl, rfl⟩
      have inside := shifted_bracketed depth (by decide : '\x7d' ≠ '\n') <|
        shifted_labelled keys fun entry member => ih entry member (depth + 1)
      rw [inTree_map, inTree_map]
      exact opening.append inside
  | record title word keys each ih =>
      have dash : Shifted (margin further).toList false " - ".toList " - ".toList false :=
        ⟨rfl, rfl⟩
      have lines := shifted_row (depth + 1) <|
        shifted_labelled keys fun entry member => ih entry member (depth + 1)
      rw [inTree_record, inTree_record]
      exact (shifted_oneLine title).append
        (dash.append ((shifted_oneLine word).append (shifted_feed.append lines)))

/-- An outline whose texts stand on one line each is printed deeper by putting blanks before all
lines but the first. -/
theorem InLines.print_eq {outline : Outline} (inLines : outline.InLines) (depth : Nat) :
    outline.print depth = Text.indentFurther (margin depth) (outline.print 0) := by
  have shifted := (inLines.shifted depth 0).eq
  rw [Text.indentFurther, toList_print, shifted, ← toList_print, String.ofList_toList, Nat.add_zero]

/-- Such an outline ends its last line. -/
theorem InLines.getLast?_print {outline : Outline} (inLines : outline.InLines) (depth : Nat) :
    (outline.print depth).toList.getLast? = some '\n' := by
  have fresh := (inLines.shifted 0 depth).fresh
  rw [toList_print]
  rw [Text.freshAfter] at fresh
  cases final : (outline.inTree depth).getLast? with
  | none =>
      rw [final] at fresh
      cases fresh
  | some last =>
      rw [final] at fresh
      exact congrArg some (of_decide_eq_true fresh)

/-! ## Lines of legible outlines -/

theorem isOneLine_of_all {holds : Char → Bool} {text : String} (feed : holds '\n' = false)
    (all : text.toList.all holds) : isOneLine text := by
  rw [List.all_eq_true] at all
  rw [isOneLine, List.all_eq_true]
  intro c member
  apply decide_eq_true
  rintro rfl
  cases feed.symm.trans (all '\n' member)

theorem isOneLine_of_isWord {text : String} (word : isWord text) : isOneLine text :=
  isOneLine_of_all rfl word

theorem isOneLine_of_isBare {text : String} (bare : Text.isBare text) : isOneLine text := by
  rw [Text.isBare, Bool.and_eq_true] at bare
  exact isOneLine_of_all rfl bare.2

theorem isOneLine_of_isLeaf {byCode : Char → Bool} {text : String}
    (leaf : Text.IsLeaf byCode text) : isOneLine text := by
  cases leaf with
  | quoted name => exact Text.Quoted.isOneLine_textWith byCode name
  | bare bare => exact isOneLine_of_isBare bare

/-- The texts of a legible outline stand on one line each. -/
theorem Legible.inLines {byCode : Char → Bool} {outline : Outline}
    (legible : Legible byCode outline) : outline.InLines := by
  induction legible with
  | value leaf => exact .value (isOneLine_of_isLeaf leaf)
  | list each ih => exact .list ih
  | map keys each ih =>
      exact .map (fun entry member => isOneLine_of_isWord (keys entry member)) ih
  | record title word keys each ih =>
      exact .record (isOneLine_of_isWord (isWord_of_isTitle title)) (isOneLine_of_isWord word)
        (fun entry member => isOneLine_of_isWord (keys entry member)) ih

end Outline

/-! ## Fields of nodes -/

namespace Field

mutual

/-- Whether no value and no key of a field has a line feed in it. Nothing is asked of nodes. -/
def isInLines : Field α → Bool
  | .node _ | .scope _ => true
  | .list items => areInLines items
  | .map entries => entriesAreInLines entries
  | .value text => Text.isOneLine text

/-- Whether no value and no key of any of the items has a line feed in it. -/
def areInLines : List (Field α) → Bool
  | [] => true
  | item :: items => item.isInLines && areInLines items

/-- Whether no key and nothing under a key has a line feed in it. -/
def entriesAreInLines : List (String × Field α) → Bool
  | [] => true
  | (key, inner) :: entries => Text.isOneLine key && inner.isInLines && entriesAreInLines entries

end

mutual

/-- The texts of such a field stand on one line each in its outline. -/
theorem inLines_outline : ∀ field : Field α, field.isInLines → field.outline.InLines
  | .node inner, _ => (Node.legible_outlineWith _ inner).inLines
  | .scope inner, _ => (Scope.legible_outlineWith _ inner).inLines
  | .list items, inLines => .list (inLines_outlines items inLines)
  | .map entries, inLines => by
      have each := inLines_outlinesOfEntries entries inLines
      exact .map (fun entry member => (each entry member).1)
        (fun entry member => (each entry member).2)
  | .value _, inLines => .value inLines

theorem inLines_outlines :
    ∀ items : List (Field α), areInLines items → ∀ outline ∈ outlines items, outline.InLines
  | [], _ => nofun
  | item :: items, inLines => by
      rw [areInLines, Bool.and_eq_true] at inLines
      exact List.forall_mem_cons.mpr
        ⟨inLines_outline item inLines.1, inLines_outlines items inLines.2⟩

theorem inLines_outlinesOfEntries :
    ∀ entries : List (String × Field α), entriesAreInLines entries →
      ∀ entry ∈ outlinesOfEntries entries, Text.isOneLine entry.1 ∧ entry.2.InLines
  | [], _ => nofun
  | (key, inner) :: entries, inLines => by
      rw [entriesAreInLines, Bool.and_eq_true, Bool.and_eq_true] at inLines
      exact List.forall_mem_cons.mpr ⟨⟨inLines.1.1, inLines_outline inner inLines.1.2⟩,
        inLines_outlinesOfEntries entries inLines.2⟩

end

/-- All fields of a node have their values on one line. -/
theorem entriesAreInLines_fields (node : Node α) : entriesAreInLines node.fields := by
  have quoted (name : String) : Text.isOneLine (Text.Quoted.text name) :=
    Text.Quoted.isOneLine_textWith _ name
  have display (type : ScalarType) : Text.isOneLine type.display :=
    Outline.isOneLine_of_isBare type.isBare_display
  have nodes (inner : List (Node α)) : areInLines (inner.map .node) := by
    induction inner with
    | nil => rfl
    | cons first others ih => rw [List.map_cons, areInLines, isInLines, ih, Bool.and_true]
  cases node with
  | binary op lhs rhs loc => rfl
  | literal value loc =>
      have number := Outline.isOneLine_of_isBare (Text.isBare_integer value.toInt)
      rw [Node.fields, entriesAreInLines, isInLines, number]
      rfl
  | varDef name type value loc =>
      rw [Node.fields, entriesAreInLines, isInLines, quoted, entriesAreInLines, isInLines, display]
      rfl
  | funcDef name returnType body loc =>
      rw [Node.fields, entriesAreInLines, isInLines, quoted, entriesAreInLines, isInLines, display]
      rfl
  | scope inner =>
      rw [Node.fields, Scope.fields, entriesAreInLines, isInLines, nodes]
      rfl

end Field

/-- A field whose values and keys stand on one line each is printed deeper by putting blanks before
all lines but the first. -/
theorem Field.print_eq_indentFurther {field : Field α} (inLines : field.isInLines) (depth : Nat) :
    field.print depth = Text.indentFurther (Outline.margin depth) (field.print 0) := by
  have fields := (@Field.prints_outline α).2.2.1
  rw [fields, fields]
  exact (field.inLines_outline inLines).print_eq depth

/-- All nodes are printed deeper in this way. -/
theorem Node.print_eq_indentFurther (node : Node α) (depth : Nat) :
    node.print depth = Text.indentFurther (Outline.margin depth) (node.print 0) := by
  have nodes := (@Field.prints_outline α).1
  rw [nodes, nodes]
  exact (Node.legible_outlineWith _ node).inLines.print_eq depth

/-- The tree of a program ends its last line. -/
theorem Scope.getLast?_printTree (root : Scope α) :
    root.printTree.toList.getLast? = some '\n' := by
  rw [root.printTree_eq]
  exact (Scope.legible_outlineWith _ root).inLines.getLast?_print 0

/-- **Trees are printed relative to their depth as long as their margins fit, and in the same way
from wherever one starts.** A field whose values and keys stand on one line each is printed at a
depth as it is at the margin, with four blanks for each level before all lines but the first. The
values in the fields of nodes do stand on one line, so that all nodes are printed in this way. Where
a margin is too wide, nothing is printed, unless its width is no machine word and overflow goes
unnoticed. A program is printed like a node or a field that holds it, and the text ends its last
line. -/
theorem Field.print?_relative (checked : Bool) :
    (∀ (field : Field α) (depth : Nat), field.isInLines →
      field.outline.MarginsWithin Outline.maxWidth depth →
      ∃ text, field.print? checked 0 = some text ∧
        field.print? checked depth = some (Text.indentFurther (Outline.margin depth) text)) ∧
    (∀ (node : Node α) (depth : Nat), Field.entriesAreInLines node.fields ∧
      (node.outline.MarginsWithin Outline.maxWidth depth →
        ∃ text, node.print? checked 0 = some text ∧
          node.print? checked depth = some (Text.indentFurther (Outline.margin depth) text))) ∧
    (∀ (field : Field α) (depth : Nat), field.outline.MarginsExact checked depth →
      ¬field.outline.MarginsWithin Outline.maxWidth depth → field.print? checked depth = none) ∧
    (∀ (node : Node α) (depth : Nat), node.outline.MarginsExact checked depth →
      ¬node.outline.MarginsWithin Outline.maxWidth depth → node.print? checked depth = none) ∧
    ∀ root : Scope α, (Node.scope root).print? checked 0 = root.printTree? checked ∧
      (Field.scope root).print? checked 0 = root.printTree? checked ∧
      (root.outline.MarginsWithin Outline.maxWidth 0 →
        ∃ text, root.printTree? checked = some text ∧ text.toList.getLast? = some '\n') := by
  obtain ⟨nodes, _, fields, _⟩ := @Field.givesIf_print? α checked
  refine ⟨?_, ?_, ?_, ?_, ?_⟩
  · intro field depth inLines within
    have atMargin := within.mono (Nat.zero_le depth)
    refine ⟨field.print 0, Field.print?_eq_some atMargin checked, ?_⟩
    rw [← Field.print_eq_indentFurther inLines]
    exact Field.print?_eq_some within checked
  · intro node depth
    refine ⟨entriesAreInLines_fields node, ?_⟩
    intro within
    have atMargin := within.mono (Nat.zero_le depth)
    refine ⟨node.print 0, Node.print?_eq_some atMargin checked, ?_⟩
    rw [← node.print_eq_indentFurther]
    exact Node.print?_eq_some within checked
  · intro field depth exact tooWide
    exact (fields depth field exact).eq_none tooWide
  · intro node depth exact tooWide
    exact (nodes depth node exact).eq_none tooWide
  · intro root
    refine ⟨(root.printTree?_eq checked).symm, ?_, ?_⟩
    · rw [Field.print?]
      rfl
    · intro within
      exact ⟨root.printTree, Scope.printTree?_eq_some within checked, root.getLast?_printTree⟩

/-- A map with a list in it, that holds a value, an empty map and a block without statements. -/
def Field.sampleNested : Field Unit :=
  .map [("k", .list [.value "v", .map [], .scope ⟨.block, [], ()⟩])]

/-- The deepest line goes in by three levels, so that the tree is printed down to depth 16380. One
level deep, each line but the first has four more blanks. -/
theorem Field.print?_relative_sampleNested :
    Field.sampleNested.isInLines ∧
      Field.sampleNested.outline.MarginsWithin Outline.maxWidth 16380 ∧
      Field.sampleNested.print? true 1 = some
        ("\x7b\n        k: [\n            v\n            \x7b\x7d\n" ++
          "            ScopeNode - Scope\n                statements: []\n        ]\n    \x7d\n") ∧
      (∃ text, Field.sampleNested.print? true 0 = some text ∧ Field.sampleNested.print? true 16380 =
        some (Text.indentFurther (Outline.margin 16380) text)) ∧
      Field.sampleNested.print? true 16381 = none ∧
      Field.sampleNested.outline.MarginsExact false 16381 ∧
      Field.sampleNested.print? false 16381 = none := by
  obtain ⟨fields, _, tooWide, _⟩ := @Field.print?_relative Unit true
  have within : Field.sampleNested.outline.MarginsWithin Outline.maxWidth 16380 := by decide
  have shallowText : Field.sampleNested.print 0 =
      "\x7b\n    k: [\n        v\n        \x7b\x7d\n        ScopeNode - Scope\n" ++
        "            statements: []\n    ]\n\x7d\n" := by
    rw [Field.prints_outline.2.2.1]
    decide +kernel
  obtain ⟨text, shallow, deeper⟩ := fields Field.sampleNested 1 rfl (within.mono (by decide))
  rw [Field.print?_eq_some (within.mono (by decide)), shallowText] at shallow
  cases shallow
  refine ⟨rfl, within, ?_, fields Field.sampleNested 16380 rfl within,
    tooWide Field.sampleNested 16381 (by decide) (by decide), by decide,
    (Field.print?_relative false).2.2.1 Field.sampleNested 16381 (by decide) (by decide)⟩
  rw [deeper]
  decide +kernel

/-- A list of one value. -/
def Field.sampleItem : Field Unit :=
  .list [.value "a"]

/-- Fields are not printed at all depths, whether overflow is checked or not: the margin of the only
item may be too wide. Nor are they always printed at the right depth: overflow that goes unnoticed
brings the tree back to the margin. -/
theorem Field.print?_sampleItem_eq_none :
    Field.sampleItem.isInLines ∧
      Field.sampleItem.print? false (UInt64.size / 4) = some "[\n    a\n]\n" ∧
      ∀ checked : Bool, Field.sampleItem.print? checked 0 = some "[\n    a\n]\n" ∧
        Field.sampleItem.print? checked 16383 = none ∧
        ¬∀ (field : Field Unit) (depth : Nat), field.isInLines →
          ∃ text, field.print? checked 0 = some text ∧
            field.print? checked depth =
              some (Text.indentFurther (Outline.margin depth) text) := by
  refine ⟨rfl, ?_, ?_⟩
  · simp only [Field.sampleItem, Field.print?, Field.printItems?]
    decide +kernel
  intro checked
  have shallow : Field.sampleItem.print? checked 0 = some "[\n    a\n]\n" := by
    rw [Field.print?_eq_some (by decide), Field.prints_outline.2.2.1]
    decide +kernel
  have tooWide : Field.sampleItem.print? checked 16383 = none :=
    (Field.givesIf_print?.2.2.1 16383 _ (.inr (by decide))).eq_none (by decide)
  refine ⟨shallow, tooWide, ?_⟩
  intro relative
  obtain ⟨_, _, printed⟩ := relative Field.sampleItem 16383 rfl
  cases tooWide.symm.trans printed

end NcLang
