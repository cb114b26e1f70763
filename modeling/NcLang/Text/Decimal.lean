/-! # Decimal numbers

Integers in decimal digits, without leading zeros; a minus sign stands before a negative one.
-/

namespace NcLang.Text

/-- The decimal digits of a natural number. -/
def natural (value : Nat) : String :=
  String.ofList (Nat.toDigits 10 value)

/-- The decimal form of an integer. -/
def integer (value : Int) : String :=
  if value < 0 then "-" ++ natural value.natAbs else natural value.natAbs

end NcLang.Text
