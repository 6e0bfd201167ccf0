import IndexSnapshot.Text.Letters
import Mathlib.Tactic.SplitIfs

/-!
# Laws of letters

Letters by their codes, and what becomes of characters when letters are made small: only capitals
change, and making letters small a second time changes nothing.
-/

namespace IndexSnapshot.Text

variable {c : Char}

theorem isAlpha_iff : c.isAlpha = true ↔
    65 ≤ c.toNat ∧ c.toNat ≤ 90 ∨ 97 ≤ c.toNat ∧ c.toNat ≤ 122 := by
  show (decide (c.val ≥ 'A'.val ∧ c.val ≤ 'Z'.val) ||
    (decide (c.val ≥ 'a'.val) && decide (c.val ≤ 'z'.val))) = true ↔ _
  simp only [Bool.or_eq_true, decide_eq_true_iff, Bool.and_eq_true, ge_iff_le,
    UInt32.le_iff_toNat_le]
  rfl

theorem isDigit_iff : c.isDigit = true ↔ 48 ≤ c.toNat ∧ c.toNat ≤ 57 := by
  simp only [Char.isDigit, decide_eq_true_iff, Bool.and_eq_true, ge_iff_le, UInt32.le_iff_toNat_le]
  rfl

theorem isAlphanum_iff : c.isAlphanum = true ↔
    48 ≤ c.toNat ∧ c.toNat ≤ 57 ∨ 65 ≤ c.toNat ∧ c.toNat ≤ 90 ∨ 97 ≤ c.toNat ∧ c.toNat ≤ 122 := by
  rw [Char.isAlphanum, Bool.or_eq_true, isAlpha_iff, isDigit_iff]
  omega

theorem toNat_toLower (c : Char) :
    c.toLower.toNat = if 65 ≤ c.toNat ∧ c.toNat ≤ 90 then c.toNat + 32 else c.toNat := by
  have hupper : (c.val ≥ 'A'.val ∧ c.val ≤ 'Z'.val) ↔ 65 ≤ c.toNat ∧ c.toNat ≤ 90 := by
    simp only [ge_iff_le, UInt32.le_iff_toNat_le]
    rfl
  unfold Char.toLower
  split_ifs with h h' h'
  · show (c.val + 32).toNat = c.val.toNat + 32
    have hle : c.val.toNat ≤ 90 := h'.2
    rw [UInt32.toNat_add]
    exact Nat.mod_eq_of_lt (by simp only [UInt32.reduceToNat]; omega)
  · exact absurd (hupper.1 h) h'
  · exact absurd (hupper.2 h') h
  · rfl

/-- Only letters become others when they become small. -/
theorem toLower_eq_iff {d : Char} (hd : d.toNat < 65) : c.toLower = d ↔ c = d := by
  rw [← Char.toNat_inj, ← Char.toNat_inj, toNat_toLower]
  split_ifs <;> omega

theorem isAlpha_of_toLower (h : c.toLower.isAlpha = true) : c.isAlpha = true := by
  rw [isAlpha_iff, toNat_toLower] at h
  rw [isAlpha_iff]
  split_ifs at h <;> omega

theorem isDigit_toLower (c : Char) : c.toLower.isDigit = c.isDigit := by
  rw [Bool.eq_iff_iff, isDigit_iff, isDigit_iff, toNat_toLower]
  split_ifs <;> omega

theorem isAlphanum_toLower (c : Char) : c.toLower.isAlphanum = c.isAlphanum := by
  rw [Bool.eq_iff_iff, isAlphanum_iff, isAlphanum_iff, toNat_toLower]
  split_ifs <;> omega

theorem lower_of_forall {cs : List Char} (h : ∀ c ∈ cs, ¬ (65 ≤ c.toNat ∧ c.toNat ≤ 90)) :
    lower cs = cs := by
  have hsame : ∀ c ∈ cs, c.toLower = c := fun c hc ↦ by
    rw [← Char.toNat_inj, toNat_toLower, if_neg (h c hc)]
  rw [lower, List.map_congr_left hsame, List.map_id']

theorem lower_lower (cs : List Char) : Text.lower (Text.lower cs) = Text.lower cs := by
  rw [Text.lower, Text.lower, List.map_map]
  refine List.map_congr_left fun c _ ↦ ?_
  rw [Function.comp_apply, ← Char.toNat_inj, toNat_toLower, toNat_toLower]
  split_ifs <;> omega

end IndexSnapshot.Text
