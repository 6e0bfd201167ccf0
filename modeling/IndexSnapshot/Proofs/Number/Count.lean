import IndexSnapshot.Proofs.Number.Shortest

/-!
# Counting in 64-bit numbers

Every whole number up to `2 ^ 53` is kept exactly, so counting up to there one by one is exact: a
count never skips a number and never stands still.
-/

namespace IndexSnapshot

namespace Number

/-- What is significant is not rounded. -/
theorem roundSignificant_one_of_isSignificant {n : ℕ} (h : IsSignificant n) :
    roundSignificant n 1 = n := by
  obtain ⟨m, s, hscaled⟩ := h.exists_isScaled
  rcases Nat.eq_zero_or_pos n with rfl | hn
  · exact roundSignificant_one_of_lt (Nat.two_pow_pos 53)
  · refine roundSignificant_of_holds hn h Nat.one_pos ?_
    rw [Nat.cast_one, div_one]
    exact Interval.holds_ofUnits_self hscaled hn

end Number

namespace Binary64

variable {n : ℕ}

-- the numbers are far too large to be computed while terms are compared
attribute [local irreducible] one sizeLimit

theorem ofSize_mul_one (h : n ≤ exactCounts) : ofSize false (n * one) = finite (n * one) := by
  rw [ofSize_of_lt (mul_one_lt_sizeLimit h), Nat.cast_mul]
  rfl

/-- **A count is kept exactly.** -/
theorem ofNat_eq_finite (h : n ≤ exactCounts) : ofNat n = finite (n * one) := by
  rw [ofNat, ofQuotient, Number.roundSignificant_one_of_isSignificant (isSignificant_mul_one h),
    ofSize_mul_one h]

/-- **Adding counts is exact.** -/
theorem ofNat_add_ofNat {m : ℕ} (h : m + n ≤ exactCounts) : ofNat m + ofNat n = ofNat (m + n) := by
  have hsum : (m * one + n * one : ℤ) = ((m + n) * one : ℕ) := by push_cast; ring
  have hnonneg : ¬ (((m + n) * one : ℕ) : ℤ) < 0 := Int.not_lt.2 (Int.natCast_nonneg _)
  show add (ofNat m) (ofNat n) = ofNat (m + n)
  rw [ofNat_eq_finite (Nat.le_of_add_right_le h), ofNat_eq_finite (Nat.le_of_add_left_le h), add]
  simp only [hsum, hnonneg, decide_false, Int.natAbs_natCast]
  rw [Number.roundSignificant_one_of_isSignificant (isSignificant_mul_one h), ofSize_mul_one h,
    ofNat_eq_finite h]

/-- A count is read back. -/
theorem toInt?_ofNat (h : n ≤ exactCounts) : (ofNat n).toInt? = some (n : ℤ) := by
  have hone : (one : ℤ) ≠ 0 := Int.natCast_ne_zero.2 one_pos.ne'
  rw [ofNat_eq_finite h, toInt?, if_pos (Int.mul_emod_left _ _), Int.mul_ediv_cancel _ hone]

end Binary64

end IndexSnapshot
