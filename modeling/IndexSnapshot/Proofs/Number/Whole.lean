import IndexSnapshot.Number.Binary64
import Mathlib.Tactic.NormNum
import Mathlib.Tactic.Positivity

/-!
# Whole 64-bit numbers

A budget of versions is a 64-bit number in the range of all such numbers, but what is asked of it
are comparisons with counts. For a number that is whole these are comparisons of natural numbers,
however large it is: halving it and rounding down is exact.
-/

namespace IndexSnapshot.Binary64

/-- A whole number in units. -/
theorem toInt?_eq_some {x : Binary64} {k : ℕ} (h : x.toInt? = some (k : ℤ)) :
    x = .finite (k * one) ∨ x = .negZero ∧ k = 0 := by
  cases x with
  | nan => cases h
  | infinity negative => cases h
  | negZero =>
    simp only [toInt?, Option.some.injEq] at h
    exact .inr ⟨rfl, by omega⟩
  | finite units =>
    simp only [toInt?] at h
    split at h
    · rename_i hwhole
      rw [← Option.some.inj h, Int.ediv_mul_cancel (Int.dvd_of_emod_eq_zero hwhole)]
      exact .inl rfl
    · cases h

theorem one_pos : 0 < one := by decide +kernel

theorem finite_reachedBy_iff (k n : ℕ) : (finite (k * one)).reachedBy n = true ↔ k ≤ n := by
  have hone := one_pos
  rw [reachedBy, decide_eq_true_iff]
  generalize one = unit at hone ⊢
  norm_cast
  exact Nat.mul_le_mul_right_iff hone

theorem halfFloor_finite (k : ℕ) :
    (finite (k * one)).halfFloor = finite ((k / 2 : ℕ) * one) := by
  have hone := one_pos
  rw [halfFloor]
  generalize one = unit at hone ⊢
  have hhalf : ((k : ℤ) * unit).fdiv (2 * unit) = ((k / 2 : ℕ) : ℤ) := by
    rw [Int.fdiv_eq_ediv_of_nonneg _ (by positivity)]
    norm_cast
    exact Nat.mul_div_mul_right k 2 hone
  rw [hhalf]

/-- A count reaches a whole number when it is not below it. -/
theorem reachedBy_iff {x : Binary64} {k : ℕ} (h : x.toInt? = some (k : ℤ)) (n : ℕ) :
    x.reachedBy n = true ↔ k ≤ n := by
  rcases toInt?_eq_some h with rfl | ⟨rfl, rfl⟩
  · exact finite_reachedBy_iff k n
  · simp [reachedBy]

/-- Half a whole number is rounded down. -/
theorem halfFloor_reachedBy_iff {x : Binary64} {k : ℕ} (h : x.toInt? = some (k : ℤ)) (n : ℕ) :
    x.halfFloor.reachedBy n = true ↔ k / 2 ≤ n := by
  rcases toInt?_eq_some h with rfl | ⟨rfl, rfl⟩
  · rw [halfFloor_finite]
    exact finite_reachedBy_iff (k / 2) n
  · simp [halfFloor, reachedBy]

/-- A positive integer is a natural number from one on. -/
theorem exists_toInt?_of_isPositiveInteger {x : Binary64} (h : x.isPositiveInteger = true) :
    ∃ k : ℕ, 1 ≤ k ∧ x.toInt? = some (k : ℤ) := by
  obtain ⟨hinteger, hpositive⟩ := Bool.and_eq_true_iff.1 h
  obtain ⟨z, hz⟩ := Option.isSome_iff_exists.1 hinteger
  cases x with
  | nan => cases hpositive
  | infinity negative => cases hz
  | negZero => cases hpositive
  | finite units =>
    have hunits : 0 < units := of_decide_eq_true hpositive
    simp only [toInt?] at hz
    split at hz
    · rename_i hwhole
      have hone := one_pos
      have hz' := Option.some.inj hz
      have hzpos : 0 < z := by
        rw [← hz']
        exact Int.ediv_pos_of_pos_of_dvd hunits (by positivity) (Int.dvd_of_emod_eq_zero hwhole)
      obtain ⟨k, rfl⟩ := Int.eq_ofNat_of_zero_le hzpos.le
      exact ⟨k, by exact_mod_cast hzpos, by rw [toInt?, if_pos hwhole, hz']⟩
    · cases hz

end IndexSnapshot.Binary64
