import IndexSnapshot.Text.Units
import IndexSnapshot.Text.Utf16
import Mathlib.Data.List.Basic

/-!
# Texts in 16-bit units

A text is a sequence of characters, and is also measured, compared and cut by its 16-bit units, two
for a character beyond the basic plane. No unit that begins a character goes on in another one, so
units split where characters do: a text begins with a word in units exactly when it does in
characters, and the same text is left behind the word (`utf16_eq_append_iff`).
-/

namespace IndexSnapshot.Text

theorem length_charUnits (c : Char) : (charUnits c).length = units c := by
  unfold charUnits units
  split <;> rfl

theorem utf16_append (cs ds : List Char) : utf16 (cs ++ ds) = utf16 cs ++ utf16 ds :=
  List.flatMap_append

/-- The first character of a text can be told from its units. -/
theorem charUnits_append_inj {c d : Char} {us vs : Utf16}
    (h : charUnits c ++ us = charUnits d ++ vs) : c = d ∧ us = vs := by
  have hpieces := congrArg pieces h
  rw [pieces_charUnits_append, pieces_charUnits_append] at hpieces
  obtain rfl := Piece.char.inj (List.cons.inj hpieces).1
  exact ⟨rfl, List.append_cancel_left h⟩

/-- **Units split where characters do.** -/
theorem utf16_eq_append_iff {word cs : List Char} {rest : Utf16} :
    utf16 cs = utf16 word ++ rest ↔ ∃ tail, cs = word ++ tail ∧ rest = utf16 tail := by
  constructor
  · intro h
    induction word generalizing cs with
    | nil => exact ⟨cs, rfl, h.symm⟩
    | cons w word ih =>
      cases cs with
      | nil =>
        have hlength := congrArg List.length h
        simp only [utf16, List.flatMap_nil, List.flatMap_cons, List.length_append,
          List.length_nil, length_charUnits, units] at hlength
        split at hlength <;> omega
      | cons c cs =>
        simp only [utf16, List.flatMap_cons, List.append_assoc] at h
        obtain ⟨rfl, hcs⟩ := charUnits_append_inj h
        obtain ⟨tail, rfl, hrest⟩ := ih hcs
        exact ⟨tail, rfl, hrest⟩
  · rintro ⟨tail, rfl, rfl⟩
    exact utf16_append word tail

theorem utf16_isPrefix_iff {word cs : List Char} : utf16 word <+: utf16 cs ↔ word <+: cs := by
  constructor
  · rintro ⟨rest, h⟩
    obtain ⟨tail, rfl, -⟩ := utf16_eq_append_iff.1 h.symm
    exact List.prefix_append word tail
  · rintro ⟨tail, rfl⟩
    exact ⟨utf16 tail, (utf16_append word tail).symm⟩

end IndexSnapshot.Text
