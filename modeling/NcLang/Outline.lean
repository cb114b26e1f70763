/-! # Outlines

An outline is a printable view of a piece of data: values, lists, maps and records, nested in any
way. It is shown flat, on one line (`Outline.flat`), or as an indented tree (`Outline.print`).
Values and keys are shown as they are.

The width of a margin is a machine word of 64 bits, and no more than 65535 blanks are written at
once. A margin that is wider ends the run of the program (`Outline.margin?`). So does a width that
is no word, if overflow is checked; it is reduced to a word otherwise.
`Outline.print` is the tree with margins as wide as they have to be.
-/

namespace NcLang

/-- A printable view of a piece of data. Entries of a map keep their order, and keys may repeat. -/
inductive Outline where
  | value (text : String)
  | list (items : List Outline)
  | map (entries : List (String × Outline))
  | record (typeName tag : String) (fields : List (String × Outline))

namespace Outline

/-! ## On one line -/

mutual

/-- The outline on one line. -/
def flat : Outline → String
  | .value text => text
  | .list items => "[" ++ String.intercalate ", " (flatItems items) ++ "]"
  | .map entries => "\x7b" ++ String.intercalate ", " (flatEntries ": " entries) ++ "\x7d"
  | .record typeName tag fields =>
    typeName ++ "(" ++ String.intercalate ", " (("kind=" ++ tag) :: flatEntries "=" fields) ++ ")"

/-- Each item on one line. -/
def flatItems : List Outline → List String
  | [] => []
  | item :: items => item.flat :: flatItems items

/-- Each entry on one line, a mark between key and value. -/
def flatEntries (mark : String) : List (String × Outline) → List String
  | [] => []
  | (key, inner) :: entries => (key ++ mark ++ inner.flat) :: flatEntries mark entries

end

/-! ## As a tree -/

/-- The blanks in front of a line at a depth: four for each level. -/
def margin (depth : Nat) : String :=
  String.ofList (List.replicate (4 * depth) ' ')

/-- The width of the margin at a depth, as a machine word. Overflow is an error if it is checked. -/
def width? (checked : Bool) (depth : Nat) : Option Nat :=
  if checked ∧ UInt64.size ≤ 4 * depth then none else some (4 * depth % UInt64.size)

/-- The width of the widest margin that is written. -/
def maxWidth : Nat :=
  65535

/-- The margin that is written at a depth, unless it is too wide. -/
def margin? (checked : Bool) (depth : Nat) : Option String := do
  let width ← width? checked depth
  if width ≤ maxWidth then return String.ofList (List.replicate width ' ') else none

/-- The right margin is written if it is narrow enough, unless overflow goes unnoticed. -/
theorem margin?_eq {checked : Bool} {depth : Nat} (exact : checked ∨ 4 * depth < UInt64.size) :
    margin? checked depth = if 4 * depth ≤ maxWidth then some (margin depth) else none := by
  rw [margin?, width?]
  by_cases word : 4 * depth < UInt64.size
  · rw [if_neg fun overflow => Nat.not_le_of_lt word overflow.2, Nat.mod_eq_of_lt word]
    rfl
  · have tooWide : ¬4 * depth ≤ maxWidth := by
      rw [maxWidth]
      rw [UInt64.size] at word
      omega
    rw [if_pos ⟨exact.resolve_right word, Nat.le_of_not_lt word⟩, if_neg tooWide]
    rfl

mutual

/-- The pieces of text that print an outline, in order. The first piece goes on with the current
line, and further lines stand at or below the given depth. -/
def pieces (depth : Nat) : Outline → List String
  | .value text => [text, "\n"]
  | .list [] => ["[]", "\n"]
  | .list (item :: items) =>
    ["[", "\n"] ++ piecesOfItems (depth + 1) (item :: items) ++ [margin depth, "]", "\n"]
  | .map [] => ["\x7b\x7d", "\n"]
  | .map (entry :: entries) =>
    ["\x7b", "\n"] ++ piecesOfEntries (depth + 1) (entry :: entries) ++
      [margin depth, "\x7d", "\n"]
  | .record typeName tag fields =>
    [typeName, " - ", tag, "\n"] ++ piecesOfEntries (depth + 1) fields

/-- The pieces that print each item on lines of its own, at the given depth. -/
def piecesOfItems (depth : Nat) : List Outline → List String
  | [] => []
  | item :: items => margin depth :: item.pieces depth ++ piecesOfItems depth items

/-- The pieces that print each entry on lines of its own, at the given depth. -/
def piecesOfEntries (depth : Nat) : List (String × Outline) → List String
  | [] => []
  | (key, inner) :: entries =>
    margin depth :: key :: ": " :: inner.pieces depth ++ piecesOfEntries depth entries

end

/-- The outline as a tree whose further lines stand at or below the given depth. -/
def print (depth : Nat) (outline : Outline) : String :=
  String.join (outline.pieces depth)

end Outline

end NcLang
