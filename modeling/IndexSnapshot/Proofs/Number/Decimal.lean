import IndexSnapshot.Number.Magnitude
import IndexSnapshot.Proofs.Number.Digits
import IndexSnapshot.Proofs.Text.Letters
import Mathlib.Computability.Language

/-!
# Decimal numerals

A number is written with its decimal digits, and any number of zeros may stand in front of them.
These are all runs of digits there are: every run that is not empty is a numeral of the number that
it denotes, and of no other (`mem_numeral_iff`).
-/

namespace IndexSnapshot.Number

open Magnitude (digitsValue)

variable {n : ℕ} {ds : List Char}

/-- What a number may be written as: its digits, with zeros in front. -/
def numeral (n : ℕ) : Language Char :=
  {ds | ∃ zeros, ds = List.replicate zeros '0' ++ Nat.toDigits 10 n}

theorem toDigits_mem_numeral (n : ℕ) : Nat.toDigits 10 n ∈ numeral n := ⟨0, rfl⟩

/-! ### What a run of digits denotes -/

theorem digitsValue_toDigits (n : ℕ) : digitsValue (Nat.toDigits 10 n) = n :=
  Nat.ofDigitChars_toDigits (by decide) (by decide)

theorem digitsValue_concat (ds : List Char) (c : Char) :
    digitsValue (ds ++ [c]) = 10 * digitsValue ds + (c.toNat - '0'.toNat) := by
  rw [digitsValue, List.foldl_append]
  rfl

theorem digitsValue_of_mem_numeral (h : ds ∈ numeral n) : digitsValue ds = n := by
  obtain ⟨zeros, rfl⟩ := h
  induction zeros with
  | zero => exact digitsValue_toDigits n
  | succ zeros ih => exact ih

theorem isDigit_of_mem_numeral (h : ds ∈ numeral n) {c : Char} (hc : c ∈ ds) :
    c.isDigit = true := by
  obtain ⟨zeros, rfl⟩ := h
  rcases List.mem_append.1 hc with hc | hc
  · rw [List.eq_of_mem_replicate hc]
    rfl
  · exact Nat.isDigit_of_mem_toDigits (by decide) (by decide) hc

theorem ne_nil_of_mem_numeral (h : ds ∈ numeral n) : ds ≠ [] := by
  obtain ⟨zeros, rfl⟩ := h
  exact List.append_ne_nil_of_right_ne_nil _ (List.ne_nil_of_length_pos Nat.length_toDigits_pos)

/-- A digit is the digit of its value. -/
theorem digitChar_toNat_sub {c : Char} (h : c.isDigit = true) :
    c.toNat - '0'.toNat < 10 ∧ Nat.digitChar (c.toNat - '0'.toNat) = c := by
  obtain ⟨hlow, hhigh⟩ := Text.isDigit_iff.1 h
  have hchars : ∀ d < 10, (Nat.digitChar d).toNat = d + '0'.toNat := by decide
  have hzero : '0'.toNat = 48 := rfl
  have hlt : c.toNat - '0'.toNat < 10 := by omega
  refine ⟨hlt, Char.toNat_inj.1 ?_⟩
  rw [hchars _ hlt]
  omega

/-- **Every run of digits is a numeral of the number that it denotes.** -/
theorem mem_numeral_digitsValue (hne : ds ≠ []) (h : ∀ c ∈ ds, c.isDigit = true) :
    ds ∈ numeral (digitsValue ds) := by
  induction ds using List.reverseRec with
  | nil => exact absurd rfl hne
  | append_singleton ds c ih =>
    obtain ⟨hlt, hchar⟩ := digitChar_toNat_sub (h c (by simp))
    rw [digitsValue_concat]
    generalize c.toNat - '0'.toNat = d at hlt hchar
    rcases List.eq_nil_or_concat' ds with rfl | ⟨front, last, hds⟩
    · refine ⟨0, ?_⟩
      show [c] = Nat.toDigits 10 (0 + d)
      rw [Nat.zero_add, Nat.toDigits_of_lt_base hlt, hchar]
    · have hne' : ds ≠ [] := by simp [hds]
      obtain ⟨zeros, hzeros⟩ := ih hne' fun e he ↦ h e (List.mem_append_left [c] he)
      -- a value of zero is all zeros, and any other digits stay in front of the last one
      rcases Nat.eq_zero_or_pos (digitsValue ds) with hzero | hpos
      · rw [hzero] at hzeros ⊢
        refine ⟨zeros + 1, ?_⟩
        rw [hzeros, Nat.mul_zero, Nat.zero_add, Nat.toDigits_of_lt_base hlt, hchar,
          List.replicate_succ']
        rfl
      · refine ⟨zeros, ?_⟩
        have hdiv : (10 * digitsValue ds + d) / 10 = digitsValue ds := by omega
        have hmod : (10 * digitsValue ds + d) % 10 = d := by omega
        rw [Nat.toDigits_of_base_le (by decide) (by omega), hdiv, hmod, hchar,
          ← List.append_assoc, ← hzeros]

/-- **The numerals of a number are the runs of digits that denote it.** -/
theorem mem_numeral_iff :
    ds ∈ numeral n ↔ ds ≠ [] ∧ (∀ c ∈ ds, c.isDigit = true) ∧ digitsValue ds = n := by
  constructor
  · intro h
    exact ⟨ne_nil_of_mem_numeral h, fun _ hc ↦ isDigit_of_mem_numeral h hc,
      digitsValue_of_mem_numeral h⟩
  · rintro ⟨hne, hdigits, rfl⟩
    exact mem_numeral_digitsValue hne hdigits

end IndexSnapshot.Number
