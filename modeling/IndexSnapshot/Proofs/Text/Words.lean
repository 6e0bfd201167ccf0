import IndexSnapshot.Proofs.Text.Letters
import Mathlib.Data.List.Find
import Mathlib.Data.List.Infix

/-!
# Words of a table at the front of a text

Whether a text begins with a word of a table depends on its small letters only. When the text
begins with one word and a longer word of the table begins with the same letters, what comes next
decides between them: `GoesOn words v c` says that a word of the table has the letter `c` after the
letters `v`. Where no word goes on, the text behind `v` has no say (`firstWord?_append`).
-/

namespace IndexSnapshot.Text

variable {α : Type} {words : List (String × α)} {cs taken rest : List Char}

/-- A word begins the text when it begins the text in small letters. -/
theorem stripWord?_eq (word cs : List Char) :
    stripWord? word cs =
      if word.isPrefixOf (lower cs) then some (cs.drop word.length) else none := by
  induction word generalizing cs with
  | nil => rfl
  | cons w word ih =>
    cases cs with
    | nil => rfl
    | cons c cs =>
      rw [stripWord?, lower, List.map_cons, List.isPrefixOf_cons_cons, List.length_cons,
        List.drop_succ_cons, ih]
      by_cases hc : c.toLower = w
      · simp [hc, lower]
      · simp [hc, Ne.symm hc]

/-- The word at the front is the first of the table that begins the text in small letters. -/
theorem firstWord?_eq (words : List (String × α)) (cs : List Char) :
    firstWord? words cs =
      (words.find? fun entry ↦ entry.1.toList.isPrefixOf (lower cs)).map fun entry ↦
        (entry.2, cs.drop entry.1.toList.length) := by
  induction words with
  | nil => rfl
  | cons entry words ih =>
    obtain ⟨word, meaning⟩ := entry
    rw [firstWord?, List.findSome?_cons, List.find?_cons]
    dsimp only
    rw [stripWord?_eq]
    cases hword : word.toList.isPrefixOf (lower cs) with
    | true => rfl
    | false => exact ih

/-- A word of the table has the letter after the letters `v`. -/
def GoesOn (words : List (String × α)) (v : List Char) (c : Char) : Prop :=
  ∃ entry ∈ words, v ++ [c] <+: entry.1.toList

instance (words : List (String × α)) (v : List Char) (c : Char) : Decidable (GoesOn words v c) :=
  inferInstanceAs (Decidable (∃ entry ∈ words, v ++ [c] <+: entry.1.toList))

/-- Where no word goes on, only the letters before can make up a word. -/
theorem isPrefixOf_append {v tail : List Char} (h : ∀ c ∈ tail.head?, ¬ GoesOn words v c)
    {entry : String × α} (hentry : entry ∈ words) :
    entry.1.toList.isPrefixOf (v ++ tail) = entry.1.toList.isPrefixOf v := by
  rw [Bool.eq_iff_iff, List.isPrefixOf_iff_prefix, List.isPrefixOf_iff_prefix]
  refine ⟨fun hword ↦ ?_, fun hword ↦ hword.trans (List.prefix_append v tail)⟩
  rcases List.prefix_or_prefix_of_prefix hword (List.prefix_append v tail) with hle | ⟨more, hmore⟩
  · exact hle
  · rw [← hmore] at hword ⊢
    cases more with
    | nil => rw [List.append_nil]
    | cons c more =>
      obtain ⟨behind, hbehind⟩ := (List.prefix_append_right_inj v).1 hword
      have hhead : c ∈ tail.head? := by
        rw [← hbehind]
        rfl
      have hgoes : v ++ [c] ++ more = entry.1.toList := by
        rw [List.append_assoc, List.singleton_append, hmore]
      exact absurd ⟨entry, hentry, more, hgoes⟩ (h c hhead)

theorem find?_append {v tail : List Char} (h : ∀ c ∈ tail.head?, ¬ GoesOn words v c) :
    (words.find? fun entry ↦ entry.1.toList.isPrefixOf (v ++ tail)) =
      words.find? fun entry ↦ entry.1.toList.isPrefixOf v :=
  List.find?_congr fun _ hentry ↦ isPrefixOf_append h hentry

/-- **A word is read off a text**, when it is the first of the table among its beginnings and no
longer word goes on with what comes next. -/
theorem firstWord?_append {word : String} {meaning : α} (htaken : lower taken = word.toList)
    (hfind : (words.find? fun entry ↦ entry.1.toList.isPrefixOf word.toList) =
      some (word, meaning))
    (hrest : ∀ c ∈ rest.head?, ¬ GoesOn words word.toList c.toLower) :
    firstWord? words (taken ++ rest) = some (meaning, rest) := by
  have hlength : word.toList.length = taken.length := by
    rw [← htaken, lower, List.length_map]
  have hhead : ∀ c ∈ (lower rest).head?, ¬ GoesOn words word.toList c := by
    intro c hc
    rw [lower, List.head?_map] at hc
    obtain ⟨d, hd, rfl⟩ := Option.map_eq_some_iff.1 hc
    exact hrest d hd
  have hlower : lower (taken ++ rest) = word.toList ++ lower rest := by
    rw [← htaken, lower, List.map_append]
    rfl
  rw [firstWord?_eq, hlower, find?_append hhead, hfind, Option.map_some, hlength,
    List.drop_left]

/-- No word is read off a text when none begins its first letters and none goes on after them. -/
theorem firstWord?_append_eq_none {v : List Char} (htaken : lower taken = v)
    (hfind : (words.find? fun entry ↦ entry.1.toList.isPrefixOf v) = none)
    (hrest : ∀ c ∈ rest.head?, ¬ GoesOn words v c.toLower) :
    firstWord? words (taken ++ rest) = none := by
  have hhead : ∀ c ∈ (lower rest).head?, ¬ GoesOn words v c := by
    intro c hc
    rw [lower, List.head?_map] at hc
    obtain ⟨d, hd, rfl⟩ := Option.map_eq_some_iff.1 hc
    exact hrest d hd
  have hlower : lower (taken ++ rest) = v ++ lower rest := by
    rw [← htaken, lower, List.map_append]
    rfl
  rw [firstWord?_eq, hlower, find?_append hhead, hfind, Option.map_none]

end IndexSnapshot.Text
