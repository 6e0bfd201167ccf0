import IndexSnapshot.Proofs.Number.Decimal
import IndexSnapshot.Proofs.Number.Rounding
import IndexSnapshot.Proofs.Number.Whole
import Mathlib.Tactic.FieldSimp

/-!
# Shortest decimals

Seventeen digits are enough for every number of the 64-bit binary format: the decimals of so many
digits lie closer together than the bounds between which all decimals are rounded to the number. So
the search for the shortest decimal finds one (`holds_shortest`), and every decimal between these
bounds reads as the number, whichever way it is spelt (`ofDecimal_of_holds`).
-/

namespace IndexSnapshot.Binary64

open Number (IsSignificant)

/-! ### Numbers of the format -/

/-- The size that numbers of the format do not reach, in units. -/
def sizeLimit : ℕ := Nat.pow 2 (unitBits + Magnitude.rangeBits)

/-- The number is one that 64 bits hold: its size has at most 53 significant bits and is in
range. -/
inductive IsFormat : Binary64 → Prop
  | nan : IsFormat nan
  | infinity (negative : Bool) : IsFormat (infinity negative)
  | negZero : IsFormat negZero
  | finite {units : ℤ} (h : IsSignificant units.natAbs) (hlt : units.natAbs < sizeLimit) :
      IsFormat (finite units)

theorem ofSize_of_lt {size : ℕ} (h : size < sizeLimit) (negative : Bool) :
    ofSize negative size =
      if negative then (if size = 0 then negZero else finite (-size)) else finite size := by
  unfold sizeLimit at h
  rw [ofSize, if_pos h]

theorem ofSize_of_le {size : ℕ} (h : sizeLimit ≤ size) (negative : Bool) :
    ofSize negative size = infinity negative := by
  unfold sizeLimit at h
  rw [ofSize, if_neg (Nat.not_lt.2 h)]

theorem isFormat_ofSize {size : ℕ} (h : IsSignificant size) (negative : Bool) :
    (ofSize negative size).IsFormat := by
  rcases Nat.lt_or_ge size sizeLimit with hlt | hge
  · rw [ofSize_of_lt hlt]
    split_ifs
    · exact .negZero
    · exact .finite (by rwa [Int.natAbs_neg]) (by rwa [Int.natAbs_neg])
    · exact .finite h hlt
  · rw [ofSize_of_le hge]
    exact .infinity negative

theorem isFormat_ofNat (n : ℕ) : (ofNat n).IsFormat := by
  rw [ofNat, ofQuotient]
  exact isFormat_ofSize (Number.isSignificant_roundSignificant _ _) false

/-- Zero is read as zero, wherever its point is. -/
theorem ofDecimal_zero (exponent : ℤ) : ofDecimal false 0 exponent = finite 0 := by
  have hpos : 0 < sizeLimit := by decide +kernel
  simp only [ofDecimal, true_or, if_true]
  rw [ofSize_of_lt hpos]
  rfl

/-- **What is read from a decimal is of the format.** -/
theorem isFormat_ofDecimal (negative : Bool) (digits : ℕ) (exponent : ℤ) :
    (ofDecimal negative digits exponent).IsFormat := by
  simp only [ofDecimal, ofQuotient]
  split_ifs
  · exact isFormat_ofSize (Number.isSignificant_of_lt (Nat.two_pow_pos 53)) negative
  · exact .infinity negative
  · exact isFormat_ofSize (Number.isSignificant_roundSignificant _ _) negative
  · exact isFormat_ofSize (Number.isSignificant_roundSignificant _ _) negative

/-- The largest number up to which all whole numbers are of the format. -/
def exactCounts : ℕ := 2 ^ 53

theorem isSignificant_mul_one {n : ℕ} (h : n ≤ exactCounts) : IsSignificant (n * one) := by
  have hone : one = 2 ^ unitBits := by decide +kernel
  rw [hone]
  exact Number.isSignificant_mul_two_pow h unitBits

theorem mul_one_lt_sizeLimit {n : ℕ} (h : n ≤ exactCounts) : n * one < sizeLimit := by
  have hlimit : exactCounts * one < sizeLimit := by decide +kernel
  exact (Nat.mul_le_mul_right one h).trans_lt hlimit

/-- The number is an integer, and every integer up to its size is of the format. The zero of
negative sign is not among these. -/
def IsSafeInteger (x : Binary64) : Prop := ∃ k : ℤ, k.natAbs < 2 ^ 53 ∧ x = finite (k * one)

theorem IsSafeInteger.isFormat {x : Binary64} (h : x.IsSafeInteger) : x.IsFormat := by
  obtain ⟨k, hk, rfl⟩ := h
  have hsize : (k * one : ℤ).natAbs = k.natAbs * one := by rw [Int.natAbs_mul, Int.natAbs_natCast]
  refine .finite ?_ ?_
  · rw [hsize]
    exact isSignificant_mul_one hk.le
  · rw [hsize]
    exact mul_one_lt_sizeLimit hk.le

end IndexSnapshot.Binary64

namespace IndexSnapshot.Number

open Binary64 (one one_pos sizeLimit)

-- the numbers are far too large to be computed while terms are compared
attribute [local irreducible] Binary64.one Binary64.sizeLimit

variable {n m s digits : ℕ} {i : Interval} {g : Grid}

/-! ### Grids -/

/-- One step of a grid, in quarters of a unit. -/
def Grid.step (g : Grid) : ℚ := g.num / g.den

theorem Grid.den_ofExponent_pos (exponent : ℤ) : 0 < (ofExponent exponent).den := by
  unfold ofExponent
  split_ifs
  · exact Nat.one_pos
  · exact Nat.pow_pos (by decide)

theorem Grid.num_ofExponent_pos (exponent : ℤ) : 0 < (ofExponent exponent).num := by
  have hone : 0 < 4 * one := Nat.mul_pos (by decide) one_pos
  unfold ofExponent
  split_ifs
  · exact Nat.mul_pos (Nat.pow_pos (by decide)) hone
  · exact hone

theorem Grid.step_ofExponent (exponent : ℤ) :
    (ofExponent exponent).step = 10 ^ exponent * (4 * one) := by
  unfold ofExponent step
  split_ifs with h
  · obtain ⟨e, rfl⟩ := Int.eq_ofNat_of_zero_le h
    simp [Nat.pow_eq]
  · obtain ⟨e, he⟩ := Int.eq_ofNat_of_zero_le (show 0 ≤ -exponent by omega)
    obtain rfl : exponent = -e := by omega
    simp [Nat.pow_eq, div_eq_inv_mul]

/-- A point of a grid lies in an interval when the decimal does. -/
theorem Grid.contains_iff (hden : 0 < g.den) (count : ℕ) :
    g.contains i count = true ↔ i.Holds (count * g.step / 4) := by
  have hquot : (count : ℚ) * g.step / 4 = ((count * g.num : ℕ) : ℚ) / ((4 * g.den : ℕ) : ℚ) := by
    rw [step, Nat.cast_mul, Nat.cast_mul]
    field_simp
    norm_num
  rw [hquot, Interval.holds_div_iff _ (by omega), contains]
  have hlow : i.low * (4 * g.den) = 4 * (i.low * g.den) := by ring
  have hhigh : i.high * (4 * g.den) = 4 * (i.high * g.den) := by ring
  rw [hlow, hhigh]
  cases i.closed
  · simp
    omega
  · simp

/-- A point that is found lies in the interval. -/
theorem Grid.contains_of_point? {count : ℕ} (h : g.point? i = some count) :
    g.contains i count = true := by
  unfold point? at h
  dsimp only at h
  split at h
  · cases h
  · cases h
    assumption
  · cases h
    assumption
  · rename_i hdown hup
    cases h
    have hle := divRound_le (i.value * g.den) g.num
    have hge : i.value * g.den / g.num ≤ divRound (i.value * g.den) g.num := by
      simp only [divRound]
      split_ifs <;> omega
    rcases hge.eq_or_lt with heq | hlt
    · rwa [← heq]
    · rwa [show divRound (i.value * g.den) g.num = i.value * g.den / g.num + 1 by omega]

theorem Grid.holds_of_point? {exponent : ℤ} {count : ℕ}
    (h : (ofExponent exponent).point? i = some count) : i.Holds (count * 10 ^ exponent * one) := by
  have hpoint := (contains_iff (den_ofExponent_pos exponent) count).1 (contains_of_point? h)
  rw [step_ofExponent] at hpoint
  convert hpoint using 1
  ring

theorem Grid.le_or_le_of_not_contains {count : ℕ} (h : g.contains i count = false) :
    count * g.num ≤ i.low * g.den ∨ i.high * g.den ≤ count * g.num := by
  unfold contains at h
  split at h
  · simp only [Bool.and_eq_false_iff, decide_eq_false_iff_not, Nat.not_le] at h
    exact h.imp le_of_lt le_of_lt
  · simpa only [Bool.and_eq_false_iff, decide_eq_false_iff_not, Nat.not_lt] using h

/-- A grid has a point in the interval of a number if its steps are shorter than the distance to the
next number; above a power of two, than half of it. -/
theorem Grid.isSome_point? (h : IsScaled n m s) (hn : 0 < n) (hnum : 0 < g.num)
    (hstep : g.num < 4 * (2 ^ s * g.den))
    (hhalf : m = 2 ^ 52 → g.num < 2 * (2 ^ s * g.den)) :
    (g.point? (Interval.ofUnits n)).isSome = true := by
  have hbelow : (4 * n - gapBelow m s) * g.den = 4 * n * g.den - gapBelow m s * g.den :=
    Nat.sub_mul ..
  have hle : 2 * (2 ^ s * g.den) ≤ 4 * n * g.den := by
    rw [← Nat.mul_assoc]
    exact Nat.mul_le_mul_right _ (by have := h.two_pow_le hn; omega)
  have habove : (4 * n + 2 * 2 ^ s) * g.den = 4 * n * g.den + 2 * (2 ^ s * g.den) := by ring
  have hgap : gapBelow m s * g.den = 2 * (2 ^ s * g.den) ∨ m = 2 ^ 52 := by
    unfold gapBelow
    split_ifs with hm
    · exact .inr hm.2
    · exact .inl (Nat.mul_assoc ..)
  have hdown := Nat.div_mul_le_self (4 * n * g.den) g.num
  have hup := Nat.lt_mul_div_succ (4 * n * g.den) hnum
  rw [h.ofUnits]
  unfold point?
  dsimp only
  rw [Nat.mul_comm g.num] at hup
  generalize 4 * n * g.den / g.num = down at hdown hup ⊢
  have hnext : (down + 1) * g.num = down * g.num + g.num := Nat.succ_mul ..
  split
  · rename_i hleft hright
    have hlow := Grid.le_or_le_of_not_contains hleft
    have hhigh := Grid.le_or_le_of_not_contains hright
    dsimp only at hlow hhigh
    rw [hbelow, habove] at hlow hhigh
    rcases hgap with hgap | hm
    · omega
    · have := hhalf hm
      omega
  · rfl
  · rfl
  · rfl

/-! ### The search -/

theorem pow_length_toDigits_le (hn : 0 < n) : 10 ^ ((Nat.toDigits 10 n).length - 1) ≤ n := by
  rcases Nat.eq_zero_or_pos ((Nat.toDigits 10 n).length - 1) with hzero | hpos
  · rw [hzero]
    exact hn
  · rw [← Nat.not_lt, ← Nat.length_toDigits_le_iff (by decide) hpos]
    omega

theorem lt_pow_length_toDigits (n : ℕ) : n < 10 ^ (Nat.toDigits 10 n).length :=
  (Nat.length_toDigits_le_iff (by decide) Nat.length_toDigits_pos).1 le_rfl

/-- The leading digit of a number in units, after the point has been moved to the right. -/
theorem pow_length_toDigits_div_le {unit places : ℕ} (hunit : 0 < unit)
    (hshift : unit ≤ 10 ^ places) (hn : 0 < n) :
    (10 : ℚ) ^ (((Nat.toDigits 10 (n * 10 ^ places / unit)).length : ℤ) - (places + 1 : ℕ)) * unit ≤
      n := by
  have hpos : 0 < n * 10 ^ places / unit :=
    Nat.div_pos (hshift.trans (Nat.le_mul_of_pos_left _ hn)) hunit
  have hdiv := Nat.mul_le_of_le_div _ _ _ (pow_length_toDigits_le hpos)
  have hexp : ((Nat.toDigits 10 (n * 10 ^ places / unit)).length : ℤ) - (places + 1 : ℕ) =
      (((Nat.toDigits 10 (n * 10 ^ places / unit)).length - 1 : ℕ) : ℤ) - (places : ℕ) := by
    have := Nat.length_toDigits_pos (b := 10) (n := n * 10 ^ places / unit)
    omega
  rw [hexp, zpow_sub₀ (by norm_num), zpow_natCast, zpow_natCast, div_mul_eq_mul_div,
    div_le_iff₀ (by positivity)]
  exact_mod_cast hdiv

/-- The leading power of ten is not above the number. -/
theorem pow_leadingExponent_le (hn : 0 < n) : (10 : ℚ) ^ leadingExponent n * one ≤ n := by
  have hshift : one ≤ Nat.pow 10 400 := by decide +kernel
  have hplaces : (401 : ℤ) = (400 + 1 : ℕ) := rfl
  have hone := one_pos
  rw [leadingExponent, hplaces]
  generalize one = unit at hshift hone ⊢
  generalize 400 = places at hshift ⊢
  exact pow_length_toDigits_div_le hone hshift hn

/-- Seventeen digits are enough. -/
theorem isSome_point?_seventeen (hn : 0 < n) (h : IsSignificant n) :
    ((Grid.ofExponent (leadingExponent n - 16)).point? (Interval.ofUnits n)).isSome = true := by
  obtain ⟨m, s, hscaled⟩ := h.exists_isScaled
  have hden := Grid.den_ofExponent_pos (leadingExponent n - 16)
  have hnum := Grid.num_ofExponent_pos (leadingExponent n - 16)
  have hstep : (Grid.ofExponent (leadingExponent n - 16)).step * 10 ^ 16 ≤ 4 * (m * 2 ^ s) := by
    have hlead := pow_leadingExponent_le hn
    rw [hscaled.eq, Nat.cast_mul, Nat.cast_pow, Nat.cast_two, ← hscaled.eq] at hlead
    rw [Grid.step_ofExponent, zpow_sub₀ (by norm_num)]
    calc (10 : ℚ) ^ leadingExponent n / 10 ^ (16 : ℤ) * (4 * one) * 10 ^ 16
        = 4 * (10 ^ leadingExponent n * one) := by
          norm_num
          ring
      _ ≤ 4 * (m * 2 ^ s) := by linarith
  generalize Grid.ofExponent (leadingExponent n - 16) = g at hden hnum hstep ⊢
  have hnat : g.num * 10 ^ 16 ≤ 4 * (m * (2 ^ s * g.den)) := by
    rw [Grid.step, div_mul_eq_mul_div, div_le_iff₀ (Nat.cast_pos.2 hden)] at hstep
    have hcast : ((g.num * 10 ^ 16 : ℕ) : ℚ) ≤ ((4 * (m * (2 ^ s * g.den)) : ℕ) : ℚ) := by
      push_cast
      linarith
    exact_mod_cast hcast
  have hpos : 0 < 2 ^ s * g.den := Nat.mul_pos (Nat.two_pow_pos s) hden
  have hmul : m * (2 ^ s * g.den) ≤ 2 ^ 53 * (2 ^ s * g.den) :=
    Nat.mul_le_mul_right _ hscaled.lt.le
  refine Grid.isSome_point? hscaled hn hnum (by omega) fun hm ↦ ?_
  rw [hm] at hnat
  omega

/-- The search ends at the latest in the last grid, if that has a point. -/
theorem holds_shortestFrom (i : Interval) (leading : ℤ) (tried left : ℕ)
    (h : ((Grid.ofExponent (leading - (tried + left : ℕ))).point? i).isSome = true) :
    i.Holds ((shortestFrom i leading tried (left + 1)).1 *
      10 ^ (shortestFrom i leading tried (left + 1)).2 * one) := by
  induction left generalizing tried with
  | zero =>
    obtain ⟨count, hcount⟩ := Option.isSome_iff_exists.1 h
    rw [Nat.add_zero] at hcount
    rw [shortestFrom, hcount]
    exact (Grid.holds_of_point? hcount)
  | succ left ih =>
    rw [shortestFrom]
    cases hpoint : (Grid.ofExponent (leading - tried)).point? i with
    | some count => exact Grid.holds_of_point? hpoint
    | none => exact ih (tried + 1) (by rwa [Nat.add_right_comm, Nat.add_assoc])

/-- **The shortest decimal is found**, and it is between the bounds of the number. -/
theorem holds_shortest (hn : 0 < n) (h : IsSignificant n) :
    (Interval.ofUnits n).Holds ((shortest n).1 * 10 ^ (shortest n).2 * one) :=
  holds_shortestFrom _ _ 0 16 (isSome_point?_seventeen hn h)

/-! ### Decimals between the bounds of a number -/

theorem Interval.Holds.le_two_mul {x : ℚ} (hx : (Interval.ofUnits n).Holds x)
    (h : IsScaled n m s) (hn : 0 < n) : (n : ℚ) ≤ 2 * x ∧ x ≤ 2 * n := by
  obtain ⟨⟨hlow, hhigh⟩, -⟩ := hx
  rw [h.ofUnits] at hlow hhigh
  have hgap := gapBelow_le m s
  have hpow := h.two_pow_le hn
  have hlow' : ((2 * n : ℕ) : ℚ) ≤ ((4 * n - gapBelow m s : ℕ) : ℚ) :=
    Nat.cast_le.2 (by omega)
  have hhigh' : ((4 * n + 2 * 2 ^ s : ℕ) : ℚ) ≤ ((6 * n : ℕ) : ℚ) := Nat.cast_le.2 (by omega)
  dsimp only at hlow hhigh
  push_cast at hlow' hhigh' hlow hhigh
  constructor <;> linarith [Nat.cast_nonneg (α := ℚ) n]

/-- The value of a decimal is told by the place of its first digit. -/
theorem pow_place_le (hdigits : digits ≠ 0) (exponent : ℤ) :
    (10 : ℚ) ^ (((Nat.toDigits 10 digits).length : ℤ) + exponent - 1) ≤ digits * 10 ^ exponent ∧
      digits * (10 : ℚ) ^ exponent < 10 ^ (((Nat.toDigits 10 digits).length : ℤ) + exponent) := by
  have hpos : (0 : ℚ) < 10 ^ exponent := zpow_pos (by norm_num) exponent
  have hlength := Nat.length_toDigits_pos (b := 10) (n := digits)
  have hlow : ((10 ^ ((Nat.toDigits 10 digits).length - 1) : ℕ) : ℚ) ≤ digits :=
    Nat.cast_le.2 (pow_length_toDigits_le (Nat.pos_of_ne_zero hdigits))
  have hhigh : (digits : ℚ) < ((10 ^ (Nat.toDigits 10 digits).length : ℕ) : ℚ) :=
    Nat.cast_lt.2 (lt_pow_length_toDigits digits)
  have hexp : ((Nat.toDigits 10 digits).length : ℤ) + exponent - 1 =
      (((Nat.toDigits 10 digits).length - 1 : ℕ) : ℤ) + exponent := by omega
  rw [hexp, zpow_add₀ (by norm_num), zpow_add₀ (by norm_num), zpow_natCast, zpow_natCast]
  push_cast at hlow hhigh
  exact ⟨mul_le_mul_of_nonneg_right hlow hpos.le, mul_lt_mul_of_pos_right hhigh hpos⟩

/-- What is not far below a number of the format does not begin far behind the point. -/
theorem le_place_of_le {x : ℚ} {place : ℤ} (hn : 0 < n) (hlow : (n : ℚ) ≤ 2 * (x * one))
    (hx : x < 10 ^ place) : -330 ≤ place := by
  have hsmall : 2 * one < Nat.pow 10 331 := by decide +kernel
  generalize hplaces : 331 = places at hsmall
  have hone : (0 : ℚ) < one := Nat.cast_pos.2 one_pos
  have hn1 : (1 : ℚ) ≤ n := Nat.one_le_cast.2 hn
  by_contra! hlt
  have hpow : (10 : ℚ) ^ place ≤ 10 ^ (-(places : ℤ)) :=
    zpow_le_zpow_right₀ (by norm_num) (by omega)
  rw [zpow_neg, zpow_natCast] at hpow
  have hsmall' : 2 * (one : ℚ) < 10 ^ places := by exact_mod_cast hsmall
  have hx0 : 0 < x := by
    by_contra! hle
    nlinarith
  have hx1 : x * 10 ^ places < 1 := by
    rw [← lt_div_iff₀ (by positivity), one_div]
    linarith
  nlinarith

/-- What is not far above a number of the format does not begin far before the point. -/
theorem place_le_of_le {x : ℚ} {place : ℤ} (hrange : n < sizeLimit) (hhigh : x * one ≤ 2 * n)
    (hx : 10 ^ (place - 1) ≤ x) : place ≤ 310 := by
  have hlarge : 2 * sizeLimit ≤ Nat.pow 10 310 * one := by decide +kernel
  generalize hplaces : 310 = places at hlarge
  have hone : (0 : ℚ) < one := Nat.cast_pos.2 one_pos
  by_contra! hlt
  have hpow : (10 : ℚ) ^ (places : ℤ) ≤ 10 ^ (place - 1) :=
    zpow_le_zpow_right₀ (by norm_num) (by omega)
  rw [zpow_natCast] at hpow
  have hlarge' : 2 * (n : ℚ) < 10 ^ places * one := by
    exact_mod_cast (Nat.mul_lt_mul_of_pos_left hrange Nat.two_pos).trans_le hlarge
  have hx' : (10 : ℚ) ^ places * one ≤ x * one :=
    mul_le_mul_of_nonneg_right (hpow.trans hx) hone.le
  linarith

/-- A decimal near a number of the format has its first digit in the range of all such numbers. -/
theorem place_of_holds (hn : 0 < n) (h : IsSignificant n)
    (hrange : n < sizeLimit) {exponent : ℤ}
    (hx : (Interval.ofUnits n).Holds (digits * 10 ^ exponent * one)) : digits ≠ 0 ∧
      -330 ≤ ((Nat.toDigits 10 digits).length : ℤ) + exponent ∧
        ((Nat.toDigits 10 digits).length : ℤ) + exponent ≤ 310 := by
  obtain ⟨m, s, hscaled⟩ := h.exists_isScaled
  obtain ⟨hlow, hhigh⟩ := hx.le_two_mul hscaled hn
  have hn0 : (0 : ℚ) < n := Nat.cast_pos.2 hn
  have hdigits : digits ≠ 0 := by
    rintro rfl
    simp only [Nat.cast_zero, zero_mul, mul_zero] at hlow
    linarith
  obtain ⟨hplace, hplace'⟩ := pow_place_le hdigits exponent
  exact ⟨hdigits, le_place_of_le hn hlow hplace', place_le_of_le hrange hhigh hplace⟩

/-- **A decimal between the bounds of a number reads as the number.** -/
theorem ofDecimal_of_holds (hn : 0 < n) (h : IsSignificant n)
    (hrange : n < sizeLimit) {exponent : ℤ}
    (hx : (Interval.ofUnits n).Holds (digits * 10 ^ exponent * one)) (negative : Bool) :
    Binary64.ofDecimal negative digits exponent = .finite (if negative then -n else n) := by
  obtain ⟨hdigits, hlow, hhigh⟩ := place_of_holds hn h hrange hx
  have hsize : Binary64.ofSize negative n = .finite (if negative then -n else n) := by
    rw [Binary64.ofSize_of_lt hrange, if_neg hn.ne']
    cases negative <;> rfl
  simp only [Binary64.ofDecimal]
  rw [if_neg (by omega), if_neg (by omega), ← hsize]
  split_ifs with hexp
  · obtain ⟨e, rfl⟩ := Int.eq_ofNat_of_zero_le hexp
    rw [Binary64.ofQuotient, roundSignificant_of_holds hn h Nat.one_pos]
    convert hx using 1
    simp [Nat.pow_eq]
  · obtain ⟨e, he⟩ := Int.eq_ofNat_of_zero_le (show 0 ≤ -exponent by omega)
    obtain rfl : exponent = -e := by omega
    rw [Binary64.ofQuotient, Nat.pow_eq, roundSignificant_of_holds hn h (by positivity)]
    convert hx using 1
    simp [div_eq_mul_inv]
    ring

theorem Interval.holds_ofUnits_self (h : IsScaled n m s) (hn : 0 < n) :
    (Interval.ofUnits n).Holds n := by
  have hpow : (0 : ℚ) < 2 ^ s := by positivity
  have hgap : gapBelow m s ≤ 4 * n ∧ 0 < gapBelow m s := by
    have := gapBelow_le m s
    have := h.two_pow_le hn
    have := Nat.two_pow_pos s
    refine ⟨by omega, ?_⟩
    unfold gapBelow
    split_ifs <;> omega
  have hgap' : (0 : ℚ) < gapBelow m s := Nat.cast_pos.2 hgap.2
  rw [h.ofUnits, Holds, Nat.cast_sub hgap.1]
  push_cast
  exact ⟨⟨by linarith, by linarith⟩, fun _ ↦ ⟨by linarith, by linarith⟩⟩

theorem shortest_pos (hn : 0 < n) (h : IsSignificant n) : 0 < (shortest n).1 := by
  obtain ⟨m, s, hscaled⟩ := h.exists_isScaled
  have hle := (holds_shortest hn h).le_two_mul hscaled hn
  by_contra! hzero
  rw [Nat.le_zero.1 hzero, Nat.cast_zero, zero_mul, zero_mul, mul_zero] at hle
  exact absurd hle.1 (not_le.2 (Nat.cast_pos.2 hn))

end IndexSnapshot.Number
