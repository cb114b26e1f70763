/-! # Sets of characters as ranges of code points

The character classes of the language are standard Unicode properties. Each is a table of
inclusive ranges in ascending order, and `CodeRanges.covers` looks a code point up, stopping at
the first range that starts beyond it.
-/

namespace NcLang.Text

/-- Inclusive ranges `(first, last)` of code points, in ascending order and apart from each other.
-/
abbrev CodeRanges := List (Nat × Nat)

/-- Whether some range holds the code point. -/
def CodeRanges.covers : CodeRanges → Nat → Bool
  | [], _ => false
  | (first, last) :: later, code => first ≤ code && (code ≤ last || covers later code)

end NcLang.Text
