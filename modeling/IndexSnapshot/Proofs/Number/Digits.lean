import IndexSnapshot.Number.Numeral
import Mathlib.Data.List.Induction
import Mathlib.Tactic.IntervalCases

/-!
# Digits of numbers

The digits that a number is written with, in a base up to sixteen, denote the number again
(`valueIn?_toDigits`), and the first of them is a zero for zero alone. A number that digits denote
is bounded by their count.
-/

namespace IndexSnapshot.Number

variable {b : ℕ}

theorem digitValue?_digitChar {d : ℕ} (h : d < 16) : digitValue? (Nat.digitChar d) = some d := by
  interval_cases d <;> rfl

/-- What a number is written with. -/
theorem exists_of_mem_toDigits (hb : 1 < b) {c : Char} {n : ℕ} (h : c ∈ Nat.toDigits b n) :
    ∃ d < b, c = Nat.digitChar d := by
  induction n using Nat.strongRecOn with
  | ind n ih =>
    rcases Nat.lt_or_ge n b with hlt | hge
    · rw [Nat.toDigits_of_lt_base hlt, List.mem_singleton] at h
      exact ⟨n, hlt, h⟩
    · rw [Nat.toDigits_of_base_le hb hge, List.mem_append, List.mem_singleton] at h
      rcases h with h | h
      · exact ih (n / b) (Nat.div_lt_self (by omega) hb) h
      · exact ⟨n % b, Nat.mod_lt n (by omega), h⟩

theorem isAlphanum_of_mem_toDigits (hb : 1 < b) (hb' : b ≤ 16) {c : Char} {n : ℕ}
    (h : c ∈ Nat.toDigits b n) : c.isAlphanum = true := by
  have hdigit : ∀ d < 16, (Nat.digitChar d).isAlphanum = true := by decide
  obtain ⟨d, hd, rfl⟩ := exists_of_mem_toDigits hb h
  exact hdigit d (hd.trans_le hb')

theorem valueIn?_concat (b : ℕ) (cs : List Char) (c : Char) :
    valueIn? b (cs ++ [c]) = (valueIn? b cs).bind fun n ↦
      (digitValue? c).bind fun d ↦ if d < b then some (b * n + d) else none := by
  rw [valueIn?, List.foldlM_append]
  refine congrArg ((valueIn? b cs).bind ·) (funext fun n ↦ ?_)
  rw [List.foldlM_cons]
  cases digitValue? c with
  | none => rfl
  | some d => by_cases hd : d < b <;> simp [hd]

/-- What denotes a number is made of digits. -/
theorem isSome_digitValue?_of_valueIn? {cs : List Char} {n : ℕ} (h : valueIn? b cs = some n) :
    ∀ c ∈ cs, (digitValue? c).isSome = true := by
  induction cs using List.reverseRecOn generalizing n with
  | nil => exact List.forall_mem_nil _
  | append_singleton cs c ih =>
    rw [valueIn?_concat] at h
    obtain ⟨m, hm, h⟩ := Option.bind_eq_some_iff.1 h
    obtain ⟨d, hd, -⟩ := Option.bind_eq_some_iff.1 h
    exact List.forall_mem_append.2
      ⟨ih hm, List.forall_mem_singleton.2 (Option.isSome_iff_exists.2 ⟨d, hd⟩)⟩

/-- **The digits of a number denote it.** -/
theorem valueIn?_toDigits (hb : 1 < b) (hb' : b ≤ 16) (n : ℕ) :
    valueIn? b (Nat.toDigits b n) = some n := by
  induction n using Nat.strongRecOn with
  | ind n ih =>
    rcases Nat.lt_or_ge n b with hlt | hge
    · rw [Nat.toDigits_of_lt_base hlt, ← List.nil_append [n.digitChar], valueIn?_concat]
      have hn : n < 16 := by omega
      simp [valueIn?, digitValue?_digitChar hn, hlt]
    · have hd : n % b < b := Nat.mod_lt n (by omega)
      have hd' : n % b < 16 := by omega
      have hdiv := ih (n / b) (Nat.div_lt_self (by omega) hb)
      rw [Nat.toDigits_of_base_le hb hge, valueIn?_concat, hdiv]
      simp [digitValue?_digitChar hd', hd, Nat.div_add_mod]

/-- The first digit of a number other than zero is no zero. -/
theorem exists_toDigits_eq_cons (hb : 1 < b) (hb' : b ≤ 16) {n : ℕ} (hn : 0 < n) :
    ∃ c cs, Nat.toDigits b n = c :: cs ∧ c ≠ '0' := by
  induction n using Nat.strongRecOn with
  | ind n ih =>
    rcases Nat.lt_or_ge n b with hlt | hge
    · refine ⟨n.digitChar, [], Nat.toDigits_of_lt_base hlt, fun h ↦ ?_⟩
      have hvalue := digitValue?_digitChar (show n < 16 by omega)
      rw [h] at hvalue
      cases hvalue
      omega
    · obtain ⟨c, cs, hcs, hc⟩ := ih (n / b) (Nat.div_lt_self hn hb)
        (Nat.div_pos hge (by omega))
      exact ⟨c, cs ++ [(n % b).digitChar], by
        rw [Nat.toDigits_of_base_le hb hge, hcs, List.cons_append], hc⟩

theorem valueIn?_lt {cs : List Char} {n : ℕ} (h : valueIn? b cs = some n) :
    n < b ^ cs.length := by
  induction cs using List.reverseRec generalizing n with
  | nil =>
    cases h
    exact Nat.one_pos
  | append_singleton cs c ih =>
    rw [valueIn?_concat] at h
    obtain ⟨m, hm, h⟩ := Option.bind_eq_some_iff.1 h
    obtain ⟨d, -, h⟩ := Option.bind_eq_some_iff.1 h
    split at h
    · rename_i hd
      cases h
      have hle : b * (m + 1) ≤ b * b ^ cs.length := Nat.mul_le_mul_left _ (ih hm)
      rw [List.length_append, List.length_singleton, Nat.pow_succ']
      rw [Nat.mul_add, Nat.mul_one] at hle
      omega
    · cases h

end IndexSnapshot.Number
