import IndexSnapshot.Number.Rounding

/-!
# Magnitudes

The numbers that stand in a version: a run of decimal digits of any length, read as the nearest
number of 53 significant bits. A run past the range of such numbers, from 309 digits on, reads as
`infinite`, and all those runs read alike.
-/

namespace IndexSnapshot

/-- A count read from a run of digits. -/
inductive Magnitude where
  /-- A whole number of at most 53 significant bits. -/
  | finite (n : Nat)
  /-- Any number past the range. -/
  | infinite
  deriving DecidableEq, Repr

namespace Magnitude

/-- The value of a run of decimal digits, the most significant first. -/
def digitsValue (ds : List Char) : Nat :=
  ds.foldl (fun n d ↦ 10 * n + (d.toNat - '0'.toNat)) 0

/-- Numbers of more binary digits than this are past the range. -/
def rangeBits : Nat := 1024

/-- The nearest magnitude. -/
def ofNat (n : Nat) : Magnitude :=
  let m := Number.roundSignificant n 1
  if m < Nat.pow 2 rangeBits then finite m else infinite

/-- The magnitude that a run of digits denotes; the empty run denotes zero. -/
def ofDigits (ds : List Char) : Magnitude := ofNat (digitsValue ds)

/-- Small whole numbers are kept exactly. -/
theorem ofNat_of_lt {n : Nat} (h : n < Nat.pow 2 53) : ofNat n = finite n := by
  have hlt : n < Nat.pow 2 rangeBits := Number.lt_pow_of_lt_pow h (by decide)
  simp only [ofNat, Number.roundSignificant_one_of_lt h, if_pos hlt]

end Magnitude

end IndexSnapshot
