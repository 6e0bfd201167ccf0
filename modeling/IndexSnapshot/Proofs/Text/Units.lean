import IndexSnapshot.Proofs.Text.Utf16

/-!
# Texts that are cut

A text that is cut after a number of 16-bit units keeps the characters that fit whole
(`utf16_takeUnits`). Of two texts, one behind the other, the first is cut and nothing of the second
is left, or the second is cut to the units that the first leaves over.
-/

namespace IndexSnapshot.Text

variable {n : ℕ} {cs ds : List Char}

/-- The length of a text in 16-bit units. -/
def unitCount (cs : List Char) : ℕ := (utf16 cs).length

theorem utf16_cons (c : Char) (cs : List Char) : utf16 (c :: cs) = charUnits c ++ utf16 cs :=
  List.flatMap_cons

theorem unitCount_cons (c : Char) (cs : List Char) :
    unitCount (c :: cs) = units c + unitCount cs := by
  rw [unitCount, utf16_cons, List.length_append, length_charUnits]
  rfl

theorem unitCount_append (cs ds : List Char) :
    unitCount (cs ++ ds) = unitCount cs + unitCount ds := by
  rw [unitCount, utf16_append, List.length_append]
  rfl

theorem takeUnits_prefix (n : ℕ) (cs : List Char) : takeUnits n cs <+: cs := by
  induction cs generalizing n with
  | nil => exact List.prefix_rfl
  | cons c cs ih =>
    rw [takeUnits]
    split
    · exact List.cons_prefix_cons.2 ⟨rfl, ih _⟩
    · exact List.nil_prefix

theorem unitCount_takeUnits_le (n : ℕ) (cs : List Char) : unitCount (takeUnits n cs) ≤ n := by
  induction cs generalizing n with
  | nil => exact Nat.zero_le n
  | cons c cs ih =>
    rw [takeUnits]
    split
    · rw [unitCount_cons]
      have := ih (n - units c)
      omega
    · exact Nat.zero_le n

/-- What is kept makes up the first units, but for the first half of a pair that is cut in two. -/
theorem utf16_takeUnits (n : ℕ) (cs : List Char) :
    ∃ half, half.length ≤ 1 ∧ (utf16 cs).take n = utf16 (takeUnits n cs) ++ half := by
  induction cs generalizing n with
  | nil => exact ⟨[], Nat.zero_le 1, by simp [utf16, takeUnits]⟩
  | cons c cs ih =>
    have hcount := length_charUnits c
    rw [takeUnits, utf16_cons, List.take_append, hcount]
    split
    · rename_i hle
      obtain ⟨half, hhalf, hcs⟩ := ih (n - units c)
      refine ⟨half, hhalf, ?_⟩
      rw [List.take_of_length_le (by omega), hcs, utf16_cons, List.append_assoc]
    · rename_i hlt
      have hunits : units c ≤ 2 := by
        unfold units
        split <;> omega
      refine ⟨(charUnits c).take n, by rw [List.length_take]; omega, ?_⟩
      rw [Nat.sub_eq_zero_of_le (by omega), List.take_zero, List.append_nil]
      rfl

theorem takeUnits_append_of_le (h : unitCount cs ≤ n) (ds : List Char) :
    takeUnits n (cs ++ ds) = cs ++ takeUnits (n - unitCount cs) ds := by
  induction cs generalizing n with
  | nil => rfl
  | cons c cs ih =>
    rw [unitCount_cons] at h
    rw [List.cons_append, takeUnits, if_pos (by omega), ih (by omega), unitCount_cons,
      Nat.sub_add_eq]
    rfl

theorem takeUnits_append_of_lt (h : n < unitCount cs) (ds : List Char) :
    takeUnits n (cs ++ ds) = takeUnits n cs := by
  induction cs generalizing n with
  | nil => exact absurd h (Nat.not_lt_zero n)
  | cons c cs ih =>
    rw [unitCount_cons] at h
    rw [List.cons_append, takeUnits, takeUnits]
    split
    · rw [ih (by omega)]
    · rfl

/-- A text that does not fit is cut. -/
theorem takeUnits_ne_of_lt (h : n < unitCount cs) : takeUnits n cs ≠ cs := fun heq ↦ by
  have hle := unitCount_takeUnits_le n cs
  rw [heq] at hle
  omega

theorem takeUnits_of_le (h : unitCount cs ≤ n) : takeUnits n cs = cs := by
  have hwhole := takeUnits_append_of_le h []
  simpa [takeUnits] using hwhole

end IndexSnapshot.Text
