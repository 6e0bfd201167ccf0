/-!
# Lengths in 16-bit units

The length of a text counts 16-bit units: a character beyond the basic plane counts twice.
-/

namespace IndexSnapshot.Text

/-- The number of 16-bit units of a character. -/
def units (c : Char) : Nat := if c.toNat < 0x10000 then 1 else 2

/-- The longest initial part of a text that fits into a number of units. -/
def takeUnits : Nat → List Char → List Char
  | _, [] => []
  | n, c :: cs => if units c ≤ n then c :: takeUnits (n - units c) cs else []

end IndexSnapshot.Text
