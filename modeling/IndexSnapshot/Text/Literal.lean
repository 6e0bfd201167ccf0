/-!
# Exact words

Texts that begin with a word, letter case included.
-/

namespace IndexSnapshot.Text

/-- What follows `word` when the text begins with it. -/
def strip? : List Char → List Char → Option (List Char)
  | [], cs => some cs
  | w :: ws, c :: cs => if c = w then strip? ws cs else none
  | _ :: _, [] => none

theorem strip?_eq_some {word cs rest : List Char} :
    strip? word cs = some rest ↔ cs = word ++ rest := by
  induction word generalizing cs with
  | nil => simp [strip?]
  | cons w ws ih =>
    cases cs with
    | nil => simp [strip?]
    | cons c cs =>
      simp only [strip?, List.cons_append, List.cons.injEq]
      split
      · simp_all
      · simp_all

end IndexSnapshot.Text
