/-!
# Rounding to 53 significant bits

Quotients of natural numbers rounded to the nearest number that has at most 53 significant bits,
a tie going to the even neighbour. Everything is exact arithmetic on `Nat`.
-/

namespace IndexSnapshot.Number

/-- The number of binary digits of `n`; zero has none. -/
def bitLength (n : Nat) : Nat := if n = 0 then 0 else n.log2 + 1

/-- The quotient rounded to the nearest whole number, a half going to the even neighbour. -/
def divRound (num den : Nat) : Nat :=
  let q := num / den
  let r := num % den
  if 2 * r < den then q else if den < 2 * r then q + 1 else q + q % 2

/-- The quotient rounded to the nearest whole number of at most 53 significant bits. -/
def roundSignificant (num den : Nat) : Nat :=
  let scale := Nat.pow 2 (bitLength (num / den) - 53)
  divRound num (den * scale) * scale

theorem lt_pow_of_lt_pow {n a b : Nat} (h : n < Nat.pow 2 a) (hab : a ≤ b) : n < Nat.pow 2 b :=
  Nat.lt_of_lt_of_le h (Nat.pow_le_pow_right Nat.two_pos hab)

theorem lt_pow_bitLength (n : Nat) : n < Nat.pow 2 (bitLength n) := by
  unfold bitLength
  split
  · simp_all
  · exact Nat.lt_log2_self

theorem bitLength_le_of_lt {n k : Nat} (h : n < Nat.pow 2 k) : bitLength n ≤ k := by
  unfold bitLength
  split
  · exact Nat.zero_le k
  · exact (Nat.log2_lt ‹_›).2 h

/-- A whole number of at most 53 bits is kept as it is. -/
theorem roundSignificant_one_of_lt {n : Nat} (h : n < Nat.pow 2 53) : roundSignificant n 1 = n := by
  have hk : bitLength n - 53 = 0 := Nat.sub_eq_zero_of_le (bitLength_le_of_lt h)
  simp [roundSignificant, divRound, hk, Nat.mod_one]

end IndexSnapshot.Number
