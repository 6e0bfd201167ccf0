/-!
# Words in either letter case

Keywords, file extensions and tag names are compared in either ASCII letter case. No character
outside ASCII is ever equal to a letter of a word.
-/

namespace IndexSnapshot.Text

/-- The text with its ASCII capitals turned into small letters. -/
def lower (cs : List Char) : List Char := cs.map Char.toLower

/-- What follows `word` when the text begins with it, letter case aside. The word is given in
small letters. -/
def stripWord? : List Char → List Char → Option (List Char)
  | [], cs => some cs
  | w :: ws, c :: cs => if c.toLower = w then stripWord? ws cs else none
  | _ :: _, [] => none

/-- The meaning of the first word of the table that begins the text, and what follows it. -/
def firstWord? {α : Type} (words : List (String × α)) (cs : List Char) :
    Option (α × List Char) :=
  words.findSome? fun (word, meaning) ↦ (stripWord? word.toList cs).map fun rest ↦ (meaning, rest)

/-- The text before the word `suffix` when it ends in it, letter case aside. -/
def stripSuffix? (suffix : List Char) (cs : List Char) : Option (List Char) :=
  let stem := cs.take (cs.length - suffix.length)
  if lower (cs.drop (cs.length - suffix.length)) = suffix then some stem else none

theorem stripWord?_eq_some {word cs rest : List Char} :
    stripWord? word cs = some rest ↔ ∃ taken, cs = taken ++ rest ∧ lower taken = word := by
  induction word generalizing cs with
  | nil => simp [stripWord?, lower]
  | cons w ws ih =>
    cases cs with
    | nil => simp [stripWord?, lower]
    | cons c cs =>
      simp only [stripWord?]
      constructor
      · intro h
        split at h
        · obtain ⟨taken, rfl, rfl⟩ := ih.1 h
          exact ⟨c :: taken, rfl, by simp_all [lower]⟩
        · cases h
      · rintro ⟨_ | ⟨d, taken⟩, h, hw⟩
        · simp [lower] at hw
        · simp only [List.cons_append, List.cons.injEq] at h
          obtain ⟨rfl, rfl⟩ := h
          simp only [lower, List.map_cons, List.cons.injEq] at hw
          rw [if_pos hw.1]
          exact ih.2 ⟨taken, rfl, hw.2⟩

theorem length_lt_of_stripWord? {word cs rest : List Char} (hw : word ≠ [])
    (h : stripWord? word cs = some rest) : rest.length < cs.length := by
  obtain ⟨taken, rfl, rfl⟩ := stripWord?_eq_some.1 h
  cases taken with
  | nil => exact absurd rfl hw
  | cons c taken => simp only [List.cons_append, List.length_cons, List.length_append]; omega

end IndexSnapshot.Text
