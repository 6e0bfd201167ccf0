import IndexSnapshot.Number.Shortest
import Mathlib.Tactic.Linarith
import Mathlib.Tactic.Positivity
import Mathlib.Tactic.Ring

/-!
# Rounding to 53 significant bits

A number is significant when at most 53 bits of it, with zeros behind them, are needed to write it.
Rounding gives significant numbers only, and every quotient in the interval of a significant number
is rounded to it (`roundSignificant_of_holds`). Below a power of two numbers lie closer together, so
that a quotient on that side is rounded with one bit more.
-/

namespace IndexSnapshot.Number

variable {n m s num den : ℕ}

/-! ### Whole quotients -/

theorem divRound_le (num den : ℕ) : divRound num den ≤ num / den + 1 := by
  simp only [divRound]
  split_ifs <;> omega

/-- A quotient is rounded to the number that is at most a half away, and at a half only if that
number is even. -/
theorem divRound_eq (hden : 0 < den) (hlow : 2 * m * den ≤ 2 * num + den)
    (hhigh : 2 * num ≤ 2 * m * den + den)
    (hodd : m % 2 = 1 → 2 * m * den < 2 * num + den ∧ 2 * num < 2 * m * den + den) :
    divRound num den = m := by
  have hnum := Nat.div_add_mod num den
  have hmod := Nat.mod_lt num hden
  simp only [divRound]
  generalize num / den = q at hnum
  generalize num % den = r at hnum hmod
  have hle : q ≤ m := by
    by_contra! hlt
    have : (m + 1) * den ≤ q * den := Nat.mul_le_mul_right den hlt
    nlinarith
  have hge : m ≤ q + 1 := by
    by_contra! hlt
    have : (q + 2) * den ≤ m * den := Nat.mul_le_mul_right den hlt
    nlinarith
  rcases (show m = q ∨ m = q + 1 by omega) with rfl | rfl
  · have hprod : 2 * m * den = 2 * (den * m) := by ring
    split_ifs <;> omega
  · have hprod : 2 * (q + 1) * den = 2 * (den * q) + 2 * den := by ring
    split_ifs <;> omega

/-! ### Significant numbers -/

/-- At most 53 bits are needed to write the number, but for zeros behind them. -/
def IsSignificant (n : ℕ) : Prop := ∃ m s, m < 2 ^ 53 ∧ n = m * 2 ^ s

theorem isSignificant_of_lt (h : n < 2 ^ 53) : IsSignificant n := ⟨n, 0, h, (Nat.mul_one n).symm⟩

theorem isSignificant_mul_two_pow (h : m ≤ 2 ^ 53) (s : ℕ) : IsSignificant (m * 2 ^ s) := by
  rcases h.lt_or_eq with h | rfl
  · exact ⟨m, s, h, rfl⟩
  · exact ⟨1, 53 + s, by decide, by rw [Nat.pow_add, Nat.one_mul]⟩

theorem bitLength_eq {k : ℕ} (hlow : 2 ^ k ≤ n) (hhigh : n < 2 ^ (k + 1)) :
    bitLength n = k + 1 := by
  have hne : n ≠ 0 := (Nat.two_pow_pos k).trans_le hlow |>.ne'
  rw [bitLength, if_neg hne, (Nat.log2_eq_iff hne).2 ⟨hlow, hhigh⟩]

theorem two_pow_le_of_bitLength {k : ℕ} (h : bitLength n = k + 1) : 2 ^ k ≤ n := by
  unfold bitLength at h
  split at h
  · cases h
  · rename_i hne
    exact ((Nat.log2_eq_iff hne).1 (Nat.succ.inj h)).1

/-- **Rounding gives significant numbers.** -/
theorem isSignificant_roundSignificant (num den : ℕ) :
    IsSignificant (roundSignificant num den) := by
  rw [roundSignificant]
  refine isSignificant_mul_two_pow ?_ _
  have hlt : num / den < 2 ^ (53 + (bitLength (num / den) - 53)) :=
    (lt_pow_bitLength _).trans_le (Nat.pow_le_pow_right Nat.two_pos (by omega))
  rw [Nat.pow_add, Nat.mul_comm] at hlt
  refine (divRound_le _ _).trans (Nat.succ_le_of_lt ?_)
  rw [← Nat.div_div_eq_div_mul]
  exact Nat.div_lt_of_lt_mul hlt

/-- A significant number as its leading bits and the zeros behind them. -/
structure IsScaled (n m s : ℕ) : Prop where
  eq : n = m * 2 ^ s
  lt : m < 2 ^ 53
  bits : bitLength n - 53 = s
  full : s = 0 ∨ 2 ^ 52 ≤ m

theorem IsSignificant.exists_isScaled (h : IsSignificant n) : ∃ m s, IsScaled n m s := by
  obtain ⟨m, t, hm, rfl⟩ := h
  cases hbits : bitLength (m * 2 ^ t) - 53 with
  | zero =>
    have hlt : m * 2 ^ t < 2 ^ 53 :=
      (lt_pow_bitLength _).trans_le (Nat.pow_le_pow_right Nat.two_pos (by omega))
    exact ⟨m * 2 ^ t, 0, (Nat.mul_one _).symm, hlt, hbits, .inl rfl⟩
  | succ s =>
    have hle : 2 ^ (s + 53) ≤ m * 2 ^ t := two_pow_le_of_bitLength (by omega)
    have hlt : m * 2 ^ t < 2 ^ (s + 54) :=
      (lt_pow_bitLength _).trans_le (Nat.pow_le_pow_right Nat.two_pos (by omega))
    -- the bits of `m` do not reach below the place where the leading 53 bits end
    have hst : s < t := by
      by_contra! hts
      have : m * 2 ^ t < 2 ^ 53 * 2 ^ s :=
        Nat.mul_lt_mul_of_lt_of_le hm (Nat.pow_le_pow_right Nat.two_pos hts) (Nat.two_pow_pos s)
      rw [← Nat.pow_add] at this
      exact absurd hle (Nat.not_le.2 (by rwa [Nat.add_comm]))
    obtain ⟨d, rfl⟩ := Nat.exists_eq_add_of_lt hst
    have heq : m * 2 ^ (s + d + 1) = m * 2 ^ d * 2 ^ (s + 1) := by ring
    rw [heq] at hle hlt hbits ⊢
    refine ⟨m * 2 ^ d, s + 1, rfl, ?_, hbits, .inr ?_⟩
    · exact Nat.lt_of_mul_lt_mul_right (hlt.trans_eq (by ring) : _ < 2 ^ 53 * 2 ^ (s + 1))
    · exact Nat.le_of_mul_le_mul_right
        ((show 2 ^ 52 * 2 ^ (s + 1) = 2 ^ (s + 53) by ring).trans_le hle)
        (Nat.two_pow_pos _)

/-! ### Intervals of numbers that are rounded alike -/

/-- A number of units lies in the interval. -/
def Interval.Holds (i : Interval) (x : ℚ) : Prop :=
  (i.low ≤ 4 * x ∧ 4 * x ≤ i.high) ∧ (i.closed = false → i.low < 4 * x ∧ 4 * x < i.high)

theorem Interval.holds_div_iff (i : Interval) (hden : 0 < den) :
    i.Holds (num / den) ↔ (i.low * den ≤ 4 * num ∧ 4 * num ≤ i.high * den) ∧
      (i.closed = false → i.low * den < 4 * num ∧ 4 * num < i.high * den) := by
  have hden : (0 : ℚ) < den := Nat.cast_pos.2 hden
  rw [Holds, ← mul_div_assoc, le_div_iff₀ hden, div_le_iff₀ hden, lt_div_iff₀ hden,
    div_lt_iff₀ hden]
  norm_cast

/-- How far below a significant number its interval reaches, in quarters of a unit. -/
def gapBelow (m s : ℕ) : ℕ := if 0 < s ∧ m = 2 ^ 52 then 2 ^ s else 2 * 2 ^ s

theorem gapBelow_le (m s : ℕ) : gapBelow m s ≤ 2 * 2 ^ s := by
  unfold gapBelow
  split_ifs <;> omega

theorem gapBelow_mul_le (m s den : ℕ) : gapBelow m s * den ≤ 2 * (2 ^ s * den) := by
  rw [← Nat.mul_assoc]
  exact Nat.mul_le_mul_right den (gapBelow_le m s)

theorem IsScaled.ofUnits (h : IsScaled n m s) : Interval.ofUnits n =
    ⟨4 * n - gapBelow m s, 4 * n, 4 * n + 2 * 2 ^ s, decide (m % 2 = 0)⟩ := by
  have hpow : 0 < 2 ^ s := Nat.two_pow_pos s
  have htwo : (n = 2 ^ (s + 52)) ↔ m = 2 ^ 52 := by
    rw [h.eq, Nat.add_comm, Nat.pow_add]
    exact ⟨fun heq ↦ Nat.eq_of_mul_eq_mul_right hpow heq, fun heq ↦ by rw [heq]⟩
  have hdiv : n / 2 ^ s = m := by rw [h.eq, Nat.mul_div_cancel m hpow]
  simp only [Interval.ofUnits, Nat.pow_eq, h.bits, htwo, hdiv, gapBelow]

theorem IsScaled.two_pow_le (h : IsScaled n m s) (hn : 0 < n) : 2 ^ s ≤ n := by
  rw [h.eq] at hn ⊢
  exact Nat.le_mul_of_pos_left _ (Nat.pos_of_mul_pos_right hn)

/-- The interval of a significant number, in whole numbers. -/
theorem IsScaled.of_holds (h : IsScaled n m s) (hn : 0 < n) (hden : 0 < den)
    (hx : (Interval.ofUnits n).Holds (num / den)) :
    (4 * (m * (2 ^ s * den)) ≤ 4 * num + gapBelow m s * den ∧
      4 * num ≤ 4 * (m * (2 ^ s * den)) + 2 * (2 ^ s * den)) ∧
    (m % 2 = 1 → 4 * (m * (2 ^ s * den)) < 4 * num + gapBelow m s * den ∧
      4 * num < 4 * (m * (2 ^ s * den)) + 2 * (2 ^ s * den)) := by
  rw [Interval.holds_div_iff _ hden, h.ofUnits] at hx
  dsimp only at hx
  have hle : gapBelow m s ≤ 4 * n := by
    have := gapBelow_le m s
    have := h.two_pow_le hn
    omega
  have hlow : (4 * n - gapBelow m s) * den + gapBelow m s * den = 4 * (m * (2 ^ s * den)) := by
    rw [← Nat.add_mul, Nat.sub_add_cancel hle, h.eq]
    ring
  have hhigh : (4 * n + 2 * 2 ^ s) * den = 4 * (m * (2 ^ s * den)) + 2 * (2 ^ s * den) := by
    rw [h.eq]
    ring
  refine ⟨⟨by omega, by omega⟩, fun hodd ↦ ?_⟩
  have hstrict := hx.2 (by simp [hodd])
  exact ⟨by omega, by omega⟩

/-- A quotient of known length is rounded to the leading bits that are nearest. -/
theorem roundSignificant_of_bits (hden : 0 < den) (hbits : bitLength (num / den) - 53 = s)
    (hlow : 4 * (m * (2 ^ s * den)) ≤ 4 * num + 2 * (2 ^ s * den))
    (hhigh : 4 * num ≤ 4 * (m * (2 ^ s * den)) + 2 * (2 ^ s * den))
    (hodd : m % 2 = 1 → 4 * (m * (2 ^ s * den)) < 4 * num + 2 * (2 ^ s * den) ∧
      4 * num < 4 * (m * (2 ^ s * den)) + 2 * (2 ^ s * den)) :
    roundSignificant num den = m * 2 ^ s := by
  have hround : divRound num (den * 2 ^ s) = m := by
    rw [Nat.mul_comm den]
    refine divRound_eq (Nat.mul_pos (Nat.two_pow_pos s) hden) ?_ ?_ fun hm ↦ ?_
    · rw [Nat.mul_assoc]
      omega
    · rw [Nat.mul_assoc]
      omega
    · have hstrict := hodd hm
      rw [Nat.mul_assoc]
      omega
  rw [roundSignificant, hbits, Nat.pow_eq, hround]

/-- No quotient in the interval of a number needs more bits than the number may have. -/
theorem IsScaled.div_lt (h : IsScaled n m s) (hden : 0 < den)
    (hhigh : 4 * num ≤ 4 * (m * (2 ^ s * den)) + 2 * (2 ^ s * den)) : num / den < 2 ^ (53 + s) := by
  have hmul : m * (2 ^ s * den) ≤ (2 ^ 53 - 1) * (2 ^ s * den) :=
    Nat.mul_le_mul_right _ (Nat.le_pred_of_lt h.lt)
  have hpos : 0 < 2 ^ s * den := Nat.mul_pos (Nat.two_pow_pos s) hden
  rw [Nat.div_lt_iff_lt_mul hden, Nat.pow_add, Nat.mul_assoc]
  omega

/-- The quotient has as many bits as the number. -/
theorem IsScaled.roundSignificant_of_le (h : IsScaled n m s) (hn : 0 < n) (hden : 0 < den)
    (hx : (Interval.ofUnits n).Holds (num / den))
    (hbinade : s = 0 ∨ 2 ^ 52 * (2 ^ s * den) ≤ num) : roundSignificant num den = n := by
  obtain ⟨⟨hlow, hhigh⟩, hodd⟩ := h.of_holds hn hden hx
  have hgap := gapBelow_mul_le m s den
  have hbits : bitLength (num / den) - 53 = s := by
    have hlt := h.div_lt hden hhigh
    rcases hbinade with rfl | hle
    · exact Nat.sub_eq_zero_of_le (bitLength_le_of_lt hlt)
    · rw [bitLength_eq (k := 52 + s) _ (hlt.trans_eq (congrArg _ (by omega)))]
      · omega
      · rwa [Nat.le_div_iff_mul_le hden, Nat.pow_add, Nat.mul_assoc]
  rw [roundSignificant_of_bits hden hbits (by omega) hhigh fun hm ↦ ?_, ← h.eq]
  have hstrict := hodd hm
  omega

/-- The number is the power of two that the quotient is just below, and rounding carries. -/
theorem IsScaled.roundSignificant_of_lt (h : IsScaled n m s) (hn : 0 < n) (hden : 0 < den)
    (hx : (Interval.ofUnits n).Holds (num / den)) (hs : s ≠ 0)
    (hbelow : num < 2 ^ 52 * (2 ^ s * den)) : roundSignificant num den = n := by
  obtain ⟨⟨hlow, hhigh⟩, -⟩ := h.of_holds hn hden hx
  obtain ⟨t, rfl⟩ := Nat.exists_eq_add_one_of_ne_zero hs
  have hgap := gapBelow_mul_le m (t + 1) den
  have hm : m = 2 ^ 52 := by
    refine (h.full.resolve_left hs).antisymm' (Nat.le_of_not_lt fun hgt ↦ ?_)
    have : (2 ^ 52 + 1) * (2 ^ (t + 1) * den) ≤ m * (2 ^ (t + 1) * den) :=
      Nat.mul_le_mul_right _ hgt
    omega
  have hpos : 0 < 2 ^ t * den := Nat.mul_pos (Nat.two_pow_pos t) hden
  have hhalf : 2 ^ (t + 1) * den = 2 * (2 ^ t * den) := by ring
  rw [gapBelow, if_pos ⟨Nat.succ_pos t, hm⟩, hm, hhalf] at hlow
  rw [hhalf] at hbelow
  have hbits : bitLength (num / den) = 52 + t + 1 := by
    refine bitLength_eq ?_ ?_
    · rw [Nat.le_div_iff_mul_le hden, Nat.pow_add, Nat.mul_assoc]
      omega
    · rw [Nat.div_lt_iff_lt_mul hden, show 52 + t + 1 = 53 + t by omega, Nat.pow_add, Nat.mul_assoc]
      omega
  have hround : roundSignificant num den = 2 ^ 53 * 2 ^ t :=
    roundSignificant_of_bits hden (by omega) (by omega) (by omega) fun h ↦ absurd h (by decide)
  rw [hround, h.eq, hm]
  ring

/-- **Every quotient in the interval of a significant number is rounded to it.** -/
theorem roundSignificant_of_holds (hn : 0 < n) (h : IsSignificant n) (hden : 0 < den)
    (hx : (Interval.ofUnits n).Holds (num / den)) : roundSignificant num den = n := by
  obtain ⟨m, s, hscaled⟩ := h.exists_isScaled
  by_cases hbinade : s = 0 ∨ 2 ^ 52 * (2 ^ s * den) ≤ num
  · exact hscaled.roundSignificant_of_le hn hden hx hbinade
  · rw [not_or, Nat.not_le] at hbinade
    exact hscaled.roundSignificant_of_lt hn hden hx hbinade.1 hbinade.2

end IndexSnapshot.Number
