import NcLang.Tree.Field

/-! # Margins that fit

The lines of a tree go in by one level at a time, so that the widest margin is that of its deepest
line. A routine that prints a tree is stopped if that margin is too wide, and otherwise prints what
it would print without a limit (`Field.givesIf_print?`). This holds whether overflow is checked or
not, unless a width is too large for a machine word.
-/

namespace NcLang

variable {α : Type}

namespace Outline

/-! ## The deepest line -/

mutual

/-- The number of levels by which the deepest line of an outline goes in from the first one. -/
def levels : Outline → Nat
  | .value _ => 0
  | .list items => levelsOfItems items
  | .map entries => levelsOfEntries entries
  | .record _ _ fields => levelsOfEntries fields

/-- The number of levels that the items of a list take up. -/
def levelsOfItems : List Outline → Nat
  | [] => 0
  | item :: items => max (item.levels + 1) (levelsOfItems items)

/-- The number of levels that the entries of a map or a record take up. -/
def levelsOfEntries : List (String × Outline) → Nat
  | [] => 0
  | (_, inner) :: entries => max (inner.levels + 1) (levelsOfEntries entries)

end

/-- Whether no margin of some levels, of which the first is at a depth, is wider than a limit. -/
def LevelsWithin (limit depth levels : Nat) : Prop :=
  levels = 0 ∨ 4 * (depth + levels - 1) ≤ limit

/-- Whether no margin of the outline is wider than a limit if its first line stands at a depth. -/
def MarginsWithin (limit depth : Nat) (outline : Outline) : Prop :=
  outline.levels = 0 ∨ 4 * (depth + outline.levels) ≤ limit

instance (limit depth : Nat) (outline : Outline) : Decidable (outline.MarginsWithin limit depth) :=
  inferInstanceAs (Decidable (_ ∨ _))

/-- Whether no width of some levels is mistaken: overflow is checked, or there is none. -/
def LevelsExact (checked : Bool) (depth levels : Nat) : Prop :=
  checked ∨ LevelsWithin (UInt64.size - 1) depth levels

/-- Whether no width of a margin of the outline is mistaken. -/
def MarginsExact (checked : Bool) (depth : Nat) (outline : Outline) : Prop :=
  checked ∨ outline.MarginsWithin (UInt64.size - 1) depth

instance (checked : Bool) (depth : Nat) (outline : Outline) :
    Decidable (outline.MarginsExact checked depth) :=
  inferInstanceAs (Decidable (_ ∨ _))

variable {checked : Bool} {outline : Outline} {limit depth first further : Nat}

theorem levelsWithin_zero (limit depth : Nat) : LevelsWithin limit depth 0 :=
  .inl rfl

/-- The levels of an outline are those below its first line. -/
theorem levelsWithin_levels :
    LevelsWithin limit (depth + 1) outline.levels ↔ outline.MarginsWithin limit depth := by
  rw [LevelsWithin, MarginsWithin, Nat.add_right_comm, Nat.add_sub_cancel]

/-- The widths below the first line of an outline are those of its margins. -/
theorem levelsExact_levels :
    LevelsExact checked (depth + 1) outline.levels ↔ outline.MarginsExact checked depth :=
  or_congr_right levelsWithin_levels

/-- Something on a line of its own and what follows it are within a limit if the line is and both
are. -/
theorem levelsWithin_max :
    LevelsWithin limit depth (max (first + 1) further) ↔
      4 * depth ≤ limit ∧ LevelsWithin limit (depth + 1) first ∧
        LevelsWithin limit depth further := by
  unfold LevelsWithin
  omega

/-- Where the levels within brackets keep to a limit, so does the line of the closing bracket. -/
theorem LevelsWithin.closing (within : LevelsWithin limit (depth + 1) (max (first + 1) further)) :
    4 * depth ≤ limit := by
  unfold LevelsWithin at within
  omega

/-- If no width is mistaken, neither is that of the line, nor those inside, nor those that follow.
-/
theorem LevelsExact.parts (exact : LevelsExact checked depth (max (first + 1) further)) :
    (checked ∨ 4 * depth < UInt64.size) ∧ LevelsExact checked (depth + 1) first ∧
      LevelsExact checked depth further := by
  rcases exact with isChecked | words
  · exact ⟨.inl isChecked, .inl isChecked, .inl isChecked⟩
  · obtain ⟨line, inside, after⟩ := levelsWithin_max.mp words
    exact ⟨.inr (Nat.lt_of_le_pred (by decide) line), .inr inside, .inr after⟩

theorem LevelsExact.closing (exact : LevelsExact checked (depth + 1) (max (first + 1) further)) :
    checked ∨ 4 * depth < UInt64.size :=
  exact.imp_right fun words => Nat.lt_of_le_pred (by decide) words.closing

/-- What is within a limit at a depth is so at all lower depths. -/
theorem MarginsWithin.mono {lower : Nat} (within : outline.MarginsWithin limit depth)
    (le : lower ≤ depth) : outline.MarginsWithin limit lower := by
  unfold MarginsWithin at within ⊢
  omega

/-- Margins that are narrow enough are words. -/
theorem MarginsWithin.exact (within : outline.MarginsWithin maxWidth depth) (checked : Bool) :
    outline.MarginsExact checked depth := by
  refine .inr (within.imp_right fun narrow => Nat.le_trans narrow ?_)
  decide

end Outline

/-! ## Texts under a condition -/

/-- A result that is a text under a condition, and nothing otherwise. -/
structure GivesIf (condition : Prop) (text : String) (result : Option String) : Prop where
  eq_some : condition → result = some text
  eq_none : ¬condition → result = none

namespace GivesIf

variable {condition condition' : Prop} {text text' : String} {result : Option String}

/-- A text is given under no condition. -/
theorem pure (text : String) : GivesIf True text (some text) :=
  ⟨fun _ => rfl, fun never => (never trivial).elim⟩

theorem of_iff (same : condition ↔ condition') (gives : GivesIf condition text result) :
    GivesIf condition' text result :=
  ⟨fun holds => gives.eq_some (same.mpr holds), fun fails => gives.eq_none (mt same.mp fails)⟩

/-- What goes on with a text gives something if both conditions hold. -/
theorem bind {next : String → Option String} (gives : GivesIf condition text result)
    (further : GivesIf condition' text' (next text)) :
    GivesIf (condition ∧ condition') text' (result >>= next) := by
  refine ⟨?_, ?_⟩
  · rintro ⟨holds, holds'⟩
    rw [gives.eq_some holds]
    exact further.eq_some holds'
  · intro fails
    by_cases holds : condition
    · rw [gives.eq_some holds]
      exact further.eq_none fun holds' => fails ⟨holds, holds'⟩
    · rw [gives.eq_none holds]
      rfl

/-- What is made of a text is given under the same condition. -/
theorem map (make : String → String) (gives : GivesIf condition text result) :
    GivesIf condition (make text) (result >>= fun given => Pure.pure (make given)) :=
  (gives.bind (.pure (make text))).of_iff (and_iff_left trivial)

end GivesIf

/-- A margin is given if it is narrow enough. -/
theorem Outline.givesIf_margin? {checked : Bool} {depth : Nat}
    (exact : checked ∨ 4 * depth < UInt64.size) :
    GivesIf (4 * depth ≤ maxWidth) (margin depth) (margin? checked depth) := by
  rw [margin?_eq exact]
  exact ⟨fun fits => if_pos fits, fun tooWide => if_neg tooWide⟩

/-! ## The routines that print trees -/

namespace Field

open Outline (LevelsWithin LevelsExact maxWidth levels levelsOfItems levelsOfEntries
  levelsWithin_zero levelsWithin_levels levelsExact_levels levelsWithin_max givesIf_margin?)

/-- The routines print what they would without a limit if no margin is too wide. Otherwise they are
stopped, unless overflow goes unnoticed. -/
theorem givesIf_print? {checked : Bool} :
    (∀ (depth : Nat) (node : Node α), node.outline.MarginsExact checked depth →
      GivesIf (node.outline.MarginsWithin maxWidth depth) (node.print depth)
        (node.print? checked depth)) ∧
    (∀ (depth : Nat) (entries : List (String × Field α)),
      LevelsExact checked depth (levelsOfEntries (outlinesOfEntries entries)) →
      GivesIf (LevelsWithin maxWidth depth (levelsOfEntries (outlinesOfEntries entries)))
        (printEntries depth entries) (printEntries? checked depth entries)) ∧
    (∀ (depth : Nat) (field : Field α), field.outline.MarginsExact checked depth →
      GivesIf (field.outline.MarginsWithin maxWidth depth) (field.print depth)
        (field.print? checked depth)) ∧
    ∀ (depth : Nat) (items : List (Field α)),
      LevelsExact checked depth (levelsOfItems (outlines items)) →
      GivesIf (LevelsWithin maxWidth depth (levelsOfItems (outlines items)))
        (printItems depth items) (printItems? checked depth items) := by
  -- The induction follows the calls of the routines; each case puts the conditions of its calls
  -- together and compares them with that on all levels.
  apply Node.print?.mutual_induct
  case case1 =>
    intro depth node fields exact
    rw [Node.print?, Node.print]
    rw [node.outline_eq, ← levelsExact_levels, levels] at exact
    rw [node.outline_eq, ← levelsWithin_levels, levels]
    exact (fields exact).map _
  case case2 =>
    intro depth _
    rw [printEntries?, printEntries]
    exact (GivesIf.pure "").of_iff (iff_of_true trivial (levelsWithin_zero _ depth))
  case case3 =>
    intro depth key inner entries here further exact
    rw [printEntries?, printEntries, outlinesOfEntries, levelsOfEntries]
    rw [outlinesOfEntries, levelsOfEntries] at exact
    obtain ⟨width, inside, after⟩ := exact.parts
    refine GivesIf.of_iff ?_ ((givesIf_margin? width).bind
      ((here (levelsExact_levels.mp inside)).bind ((further after).map _)))
    rw [levelsWithin_max, levelsWithin_levels]
  case case4 =>
    intro depth inner printed exact
    rw [Field.print?, Field.print, outline]
    exact printed exact
  case case5 =>
    intro depth inner fields exact
    rw [Field.print?, Field.print, outline]
    rw [outline, inner.outline_eq, ← levelsExact_levels, levels] at exact
    rw [inner.outline_eq, ← levelsWithin_levels, levels]
    exact (fields exact).map _
  case case6 =>
    intro depth _
    rw [Field.print?, Field.print, ← levelsWithin_levels, outline, outlines, levels, levelsOfItems]
    exact (GivesIf.pure "[]\n").of_iff (iff_of_true trivial (levelsWithin_zero _ _))
  case case7 =>
    intro depth item items inside exact
    rw [← levelsExact_levels, outline, levels] at exact
    have printed := inside exact
    rw [outlines, levelsOfItems] at exact printed
    rw [Field.print?, Field.print, ← levelsWithin_levels, outline, levels, outlines, levelsOfItems]
    refine GivesIf.of_iff ?_ (printed.bind ((givesIf_margin? exact.closing).map fun margin =>
      "[\n" ++ printItems (depth + 1) (item :: items) ++ margin ++ "]\n"))
    exact and_iff_left_of_imp LevelsWithin.closing
  case case8 =>
    intro depth _
    rw [Field.print?, Field.print, ← levelsWithin_levels, outline, outlinesOfEntries, levels,
      levelsOfEntries]
    exact (GivesIf.pure "\x7b\x7d\n").of_iff (iff_of_true trivial (levelsWithin_zero _ _))
  case case9 =>
    intro depth entry entries inside exact
    rw [← levelsExact_levels, outline, levels] at exact
    have printed := inside exact
    rw [outlinesOfEntries, levelsOfEntries] at exact printed
    rw [Field.print?, Field.print, ← levelsWithin_levels, outline, levels, outlinesOfEntries,
      levelsOfEntries]
    refine GivesIf.of_iff ?_ (printed.bind ((givesIf_margin? exact.closing).map fun margin =>
      "\x7b\n" ++ printEntries (depth + 1) (entry :: entries) ++ margin ++ "\x7d\n"))
    exact and_iff_left_of_imp LevelsWithin.closing
  case case10 =>
    intro depth text _
    rw [Field.print?, Field.print, ← levelsWithin_levels, outline, levels]
    exact (GivesIf.pure (text ++ "\n")).of_iff (iff_of_true trivial (levelsWithin_zero _ _))
  case case11 =>
    intro depth _
    rw [printItems?, printItems]
    exact (GivesIf.pure "").of_iff (iff_of_true trivial (levelsWithin_zero _ depth))
  case case12 =>
    intro depth item items here further exact
    rw [printItems?, printItems, outlines, levelsOfItems]
    rw [outlines, levelsOfItems] at exact
    obtain ⟨width, inside, after⟩ := exact.parts
    refine GivesIf.of_iff ?_ ((givesIf_margin? width).bind
      ((here (levelsExact_levels.mp inside)).bind ((further after).map _)))
    rw [levelsWithin_max, levelsWithin_levels]

end Field

/-! ## Margins that are narrow enough -/

section Narrow

open Outline (maxWidth)

variable {depth : Nat}

theorem Node.print?_eq_some {node : Node α} (within : node.outline.MarginsWithin maxWidth depth)
    (checked : Bool) : node.print? checked depth = some (node.print depth) :=
  (Field.givesIf_print?.1 depth node (within.exact checked)).eq_some within

theorem Field.print?_eq_some {field : Field α}
    (within : field.outline.MarginsWithin maxWidth depth) (checked : Bool) :
    field.print? checked depth = some (field.print depth) :=
  (Field.givesIf_print?.2.2.1 depth field (within.exact checked)).eq_some within

/-- A program is printed like a node that holds it. -/
theorem Scope.printTree?_eq (root : Scope α) (checked : Bool) :
    root.printTree? checked = (Node.scope root).print? checked 0 := by
  rw [Node.print?]
  rfl

theorem Scope.printTree?_eq_some {root : Scope α}
    (within : root.outline.MarginsWithin maxWidth 0) (checked : Bool) :
    root.printTree? checked = some root.printTree := by
  have asNode : (Node.scope root).outline.MarginsWithin maxWidth 0 := within
  rw [Scope.printTree?_eq, Node.print?_eq_some asNode, Node.print]
  rfl

end Narrow

end NcLang
