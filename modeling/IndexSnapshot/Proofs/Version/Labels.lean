import IndexSnapshot.Proofs.Text.Words
import IndexSnapshot.Proofs.Version.Identifier

/-!
# Labels are read

A label with its number is read off a text (`exists_labelled?`).

Reading never turns back, so a reader has to stop where its part of the text ends. What is read is
said in one form for all readers: of a text in the language `part * T` it leaves a text in `T`, and
tells the value of the part. What a label needs to know of `T` is how its texts begin. `Opens
letters` says that of everything that may follow a label: behind a separator, or at once, comes one
of the letters, a blank, a plus sign, or nothing.
-/

namespace IndexSnapshot.Version

open Grammar Number

variable {cs rest : List Char} {n : ℕ} {letters : List Char} {S S' T : Language Char}

/-! ### Characters -/

theorem isSeparator_iff {c : Char} : isSeparator c = true ↔ c = '-' ∨ c = '_' ∨ c = '.' := by
  simp only [isSeparator, Bool.or_eq_true, decide_eq_true_eq, or_assoc]

theorem code_of_isSeparator {c : Char} (h : isSeparator c = true) :
    c.toNat = 45 ∨ c.toNat = 95 ∨ c.toNat = 46 := by
  rcases isSeparator_iff.1 h with rfl | rfl | rfl
  · exact .inl rfl
  · exact .inr (.inl rfl)
  · exact .inr (.inr rfl)

theorem code_of_isBlank {c : Char} (h : Text.isBlank c = true) :
    c.toNat ≤ 32 ∨ 160 ≤ c.toNat := by
  have hrange : ∀ low high : Char, (decide (low ≤ c) && decide (c ≤ high)) = true ↔
      low.toNat ≤ c.toNat ∧ c.toNat ≤ high.toNat := by
    intro low high
    rw [Bool.and_eq_true, decide_eq_true_iff, decide_eq_true_iff]
    rfl
  simp only [Text.isBlank, Bool.or_eq_true, hrange, decide_eq_true_eq, ← Char.toNat_inj] at h
  simp only [Char.reduceToNat] at h
  omega

theorem mem_separator_iff : cs ∈ separator ↔ ∃ c, isSeparator c = true ∧ cs = [c] := by
  constructor
  · rintro ((rfl | rfl) | rfl)
    · exact ⟨'-', rfl, rfl⟩
    · exact ⟨'_', rfl, rfl⟩
    · exact ⟨'.', rfl, rfl⟩
  · rintro ⟨c, hc, rfl⟩
    rcases isSeparator_iff.1 hc with rfl | rfl | rfl
    · exact .inl (.inl rfl)
    · exact .inl (.inr rfl)
    · exact .inr rfl

/-! ### How texts begin -/

theorem forall_head_cons {p : Char → Prop} {c : Char} (h : p c) : ∀ d ∈ (c :: cs).head?, p d := by
  intro d hd
  obtain rfl : c = d := Option.some.inj hd
  exact h

/-- The text does not begin with a digit. -/
def NoDigit (cs : List Char) : Prop := ∀ c ∈ cs.head?, c.isDigit = false

/-- A character that a further part begins with: one of the letters in either case, a blank or
a plus sign. -/
def IsOpening (letters : List Char) (c : Char) : Prop :=
  Text.isBlank c = true ∨ c = '+' ∨ c.isAlpha = true ∧ c.toLower ∈ letters

/-- The text begins with a further part, behind a separator or at once, or it ends there. -/
def Opens (letters : List Char) (cs : List Char) : Prop :=
  ∀ c ∈ (skipSeparator cs).head?, IsOpening letters c

/-- What may stand directly behind a word: a separator, a digit, or a further part. -/
def AfterWord (letters : List Char) (cs : List Char) : Prop :=
  ∀ c ∈ cs.head?, isSeparator c = true ∨ c.isDigit = true ∨ IsOpening letters c

theorem IsOpening.isDigit_eq_false {c : Char} (h : IsOpening letters c) : c.isDigit = false := by
  rw [Bool.eq_false_iff]
  intro hdigit
  have hcode := Text.isDigit_iff.1 hdigit
  rcases h with hblank | rfl | ⟨hletter, -⟩
  · have := code_of_isBlank hblank
    omega
  · cases hdigit
  · have := Text.isAlpha_iff.1 hletter
    omega

theorem skipSeparator_of_head {c : Char} (h : isSeparator c = false) (cs : List Char) :
    skipSeparator (c :: cs) = c :: cs := by
  rw [skipSeparator, if_neg (by simp [h])]

theorem skipSeparator_cons {c : Char} (h : isSeparator c = true) (cs : List Char) :
    skipSeparator (c :: cs) = cs := by
  rw [skipSeparator, if_pos h]

namespace Opens

theorem noDigit_skipSeparator (h : Opens letters cs) : NoDigit (skipSeparator cs) :=
  fun c hc ↦ (h c hc).isDigit_eq_false

theorem noDigit (h : Opens letters cs) : NoDigit cs := by
  cases cs with
  | nil => exact fun c hc ↦ nomatch hc
  | cons c cs =>
    cases hsep : isSeparator c with
    | true =>
      refine forall_head_cons ?_
      rcases isSeparator_iff.1 hsep with rfl | rfl | rfl <;> rfl
    | false =>
      have hskip := h.noDigit_skipSeparator
      rwa [skipSeparator_of_head hsep] at hskip

theorem noDigit_tail {c : Char} (h : Opens letters (c :: cs)) (hc : isSeparator c = true) :
    NoDigit cs := by
  have hskip := h.noDigit_skipSeparator
  rwa [skipSeparator_cons hc] at hskip

theorem afterWord (h : Opens letters cs) : AfterWord letters cs := by
  cases cs with
  | nil => exact fun c hc ↦ nomatch hc
  | cons c cs =>
    refine forall_head_cons ?_
    cases hsep : isSeparator c with
    | true => exact .inl rfl
    | false =>
      refine .inr (.inr (h c ?_))
      rw [skipSeparator_of_head hsep]
      rfl

theorem mono {letters' : List Char} (h : Opens letters cs) (hsub : letters ⊆ letters') :
    Opens letters' cs :=
  fun c hc ↦ (h c hc).imp_right (Or.imp_right (And.imp_right (hsub ·)))

end Opens

/-- The texts of the language open in this way, and they stay in it without the separator that they
may begin with. -/
structure Follows (letters : List Char) (T : Language Char) : Prop where
  opens : ∀ cs ∈ T, Opens letters cs
  skip : ∀ cs ∈ T, skipSeparator cs ∈ T

namespace Follows

theorem mono {letters' : List Char} (h : Follows letters T) (hsub : letters ⊆ letters') :
    Follows letters' T :=
  ⟨fun cs hcs ↦ (h.opens cs hcs).mono hsub, h.skip⟩

theorem noDigit (h : Follows letters T) : ∀ cs ∈ T, NoDigit cs :=
  fun cs hcs ↦ (h.opens cs hcs).noDigit

end Follows

/-! ### Labels -/

/-- The words of a label begin with one of the letters, a small letter. -/
def BeginWith (words : List String) (letters : List Char) : Prop :=
  ∀ word ∈ words, ∃ c ∈ letters, c.isAlpha = true ∧ c ∈ word.toList.head?

instance (words : List String) (letters : List Char) : Decidable (BeginWith words letters) :=
  @List.decidableBAll _ _ (fun _ ↦ List.decidableBEx _ letters) words

variable {words : List String}

theorem exists_head_of_lower_eq {taken word : List Char} {c : Char}
    (htaken : Text.lower taken = word) (hc : c ∈ word.head?) :
    ∃ d tail, taken = d :: tail ∧ d.toLower = c := by
  rw [← htaken, Text.lower, List.head?_map] at hc
  obtain ⟨d, hd, rfl⟩ := Option.map_eq_some_iff.1 hc
  obtain ⟨tail, rfl⟩ := List.head?_eq_some_iff.1 hd
  exact ⟨d, tail, rfl, rfl⟩

/-- A word of the label begins with a letter. -/
theorem exists_head_of_mem_words (hwords : BeginWith words letters) {word : String}
    (hword : word ∈ words) {taken : List Char} (htaken : Text.lower taken = word.toList) :
    ∃ d tail, taken = d :: tail ∧ d.isAlpha = true ∧ d.toLower ∈ letters := by
  obtain ⟨c, hc, hletter, hhead⟩ := hwords word hword
  obtain ⟨d, tail, rfl, rfl⟩ := exists_head_of_lower_eq htaken hhead
  exact ⟨d, tail, rfl, Text.isAlpha_of_toLower hletter, hc⟩

/-- Behind its separator a label begins with one of its words. -/
theorem exists_word_of_mem_label (hwords : BeginWith words letters) (h : cs ∈ label words * T) :
    ∃ word ∈ words, ∃ taken, Text.lower taken = word.toList ∧
      ∃ rest ∈ T, skipSeparator cs = taken ++ rest := by
  obtain ⟨front, ⟨sep, hsep, taken, ⟨word, hword, htaken⟩, rfl⟩, rest, hrest, rfl⟩ := h
  refine ⟨word, hword, taken, htaken, rest, hrest, ?_⟩
  rcases hsep with rfl | hsep
  · obtain ⟨d, tail, rfl, hletter, -⟩ := exists_head_of_mem_words hwords hword htaken
    refine skipSeparator_of_head (Bool.eq_false_iff.2 fun hsep ↦ ?_) _
    have hcode := Text.isAlpha_iff.1 hletter
    have := code_of_isSeparator hsep
    omega
  · obtain ⟨c, hc, rfl⟩ := mem_separator_iff.1 hsep
    exact skipSeparator_cons hc _

theorem follows_label (hwords : BeginWith words letters) (T : Language Char) :
    Follows letters (label words * T) where
  opens cs h := by
    obtain ⟨word, hword, taken, htaken, rest, -, hskip⟩ := exists_word_of_mem_label hwords h
    obtain ⟨d, tail, rfl, hletter, hmem⟩ := exists_head_of_mem_words hwords hword htaken
    rw [Opens, hskip]
    exact forall_head_cons (.inr (.inr ⟨hletter, hmem⟩))
  skip cs h := by
    obtain ⟨word, hword, taken, htaken, rest, hrest, hskip⟩ := exists_word_of_mem_label hwords h
    rw [hskip]
    exact ⟨taken, ⟨[], .inl rfl, taken, ⟨word, hword, htaken⟩, rfl⟩, rest, hrest, rfl⟩

/-! ### Words of a table -/

section Table

variable {α : Type} {table : List (String × α)} {meaning : α}

/-- No word of the table has one of the letters after the letters `v`. -/
def Ends (table : List (String × α)) (v : List Char) (letters : List Char) : Prop :=
  ∀ c ∈ letters, ¬ Text.GoesOn table v c

instance (table : List (String × α)) (v letters : List Char) : Decidable (Ends table v letters) :=
  List.decidableBAll _ letters

/-- The table gives the words this meaning, and no letter that may follow makes a longer word. -/
structure Means (table : List (String × α)) (words : List String) (meaning : α)
    (letters : List Char) : Prop where
  find : ∀ word ∈ words,
    (table.find? fun entry ↦ entry.1.toList.isPrefixOf word.toList) = some (word, meaning)
  stop : ∀ word ∈ words, Ends table word.toList letters

/-- The table has none of the words, nor a word that begins with one of them and a letter that may
follow. -/
structure Lacks (table : List (String × α)) (words : List String) (letters : List Char) : Prop where
  find : ∀ word ∈ words,
    (table.find? fun entry ↦ entry.1.toList.isPrefixOf word.toList) = none
  stop : ∀ word ∈ words, Ends table word.toList letters

/-- The words of the table consist of letters, one at least. -/
def IsWordTable (table : List (String × α)) : Prop :=
  ∀ entry ∈ table, entry.1.toList ≠ [] ∧ entry.1.toList.all Char.isAlpha = true

instance (table : List (String × α)) : Decidable (IsWordTable table) :=
  inferInstanceAs
    (Decidable (∀ entry ∈ table, entry.1.toList ≠ [] ∧ entry.1.toList.all Char.isAlpha = true))

theorem IsWordTable.isAlpha_of_goesOn (h : IsWordTable table) {v : List Char} {c : Char}
    (hgoes : Text.GoesOn table v c) : c.isAlpha = true := by
  obtain ⟨entry, hentry, hword⟩ := hgoes
  exact List.all_eq_true.1 (h entry hentry).2 c (hword.subset (by simp))

/-- What stands behind a word does not make it longer. -/
theorem AfterWord.not_goesOn (h : AfterWord letters cs) (htable : IsWordTable table)
    {v : List Char} (hstop : Ends table v letters) :
    ∀ c ∈ cs.head?, ¬ Text.GoesOn table v c.toLower := by
  intro c hc hgoes
  have hcode := Text.isAlpha_iff.1 (Text.isAlpha_of_toLower (htable.isAlpha_of_goesOn hgoes))
  rcases h c hc with hsep | hdigit | hblank | rfl | ⟨-, hletter⟩
  · have := code_of_isSeparator hsep
    omega
  · have := Text.isDigit_iff.1 hdigit
    omega
  · have := code_of_isBlank hblank
    omega
  · have : '+'.toNat = 43 := rfl
    omega
  · exact hstop _ hletter hgoes

/-- No word of the table begins the text when no word has its first letter. -/
theorem firstWord?_eq_none (htable : IsWordTable table) (h : AfterWord letters cs)
    (hstop : Ends table [] letters) : Text.firstWord? table cs = none := by
  have hnone : (table.find? fun entry ↦ entry.1.toList.isPrefixOf []) = none := by
    refine List.find?_eq_none.2 fun entry hentry ↦ ?_
    rw [List.isPrefixOf_iff_prefix, List.prefix_nil]
    exact (htable entry hentry).1
  exact Text.firstWord?_append_eq_none (v := []) (by rfl : Text.lower [] = []) hnone
    (h.not_goesOn htable hstop)

/-- The word of a label is read off. -/
theorem exists_firstWord? (htable : IsWordTable table) (hmeans : Means table words meaning letters)
    {firsts : List Char} (hwords : BeginWith words firsts)
    (hT : ∀ cs ∈ T, AfterWord letters cs) (h : cs ∈ label words * T) :
    ∃ rest ∈ T, Text.firstWord? table (skipSeparator cs) = some (meaning, rest) := by
  obtain ⟨word, hword, taken, htaken, rest, hrest, hskip⟩ := exists_word_of_mem_label hwords h
  refine ⟨rest, hrest, ?_⟩
  rw [hskip]
  exact Text.firstWord?_append htaken (hmeans.find word hword)
    ((hT rest hrest).not_goesOn htable (hmeans.stop word hword))

/-- A label whose words are not in the table is not read. -/
theorem firstWord?_eq_none_of_lacks (htable : IsWordTable table)
    (hlacks : Lacks table words letters) {firsts : List Char} (hwords : BeginWith words firsts)
    (hT : ∀ cs ∈ T, AfterWord letters cs) (h : cs ∈ label words * T) :
    Text.firstWord? table (skipSeparator cs) = none := by
  obtain ⟨word, hword, taken, htaken, rest, hrest, hskip⟩ := exists_word_of_mem_label hwords h
  rw [hskip]
  exact Text.firstWord?_append_eq_none htaken (hlacks.find word hword)
    ((hT rest hrest).not_goesOn htable (hlacks.stop word hword))

end Table

/-! ### Numbers -/

/-- A run of characters of a class ends before a character that is not of it. -/
theorem takeWhile_dropWhile_append {p : Char → Bool} {ds : List Char} (hds : ∀ c ∈ ds, p c = true)
    (hrest : ∀ c ∈ rest.head?, p c = false) :
    (ds ++ rest).takeWhile p = ds ∧ (ds ++ rest).dropWhile p = rest := by
  rw [List.takeWhile_append_of_pos hds, List.dropWhile_append_of_pos hds]
  cases rest with
  | nil => exact ⟨List.append_nil ds, rfl⟩
  | cons c rest =>
    have hc : ¬ p c = true := Bool.eq_false_iff.1 (hrest c rfl)
    rw [List.takeWhile_cons_of_neg hc, List.dropWhile_cons_of_neg hc, List.append_nil]
    exact ⟨rfl, rfl⟩

theorem spanDigits_append {ds : List Char} (hds : ∀ c ∈ ds, c.isDigit = true)
    (hrest : NoDigit rest) : spanDigits (ds ++ rest) = (ds, rest) :=
  Prod.ext (takeWhile_dropWhile_append hds hrest).1 (takeWhile_dropWhile_append hds hrest).2

theorem spanDigits_of_noDigit (h : NoDigit cs) : spanDigits cs = ([], cs) := by
  rw [← List.nil_append cs]
  exact spanDigits_append (by simp) h

theorem ofDigits_of_mem_numeral {ds : List Char} (h : ds ∈ numeral n) :
    Magnitude.ofDigits ds = .ofNat n := by
  rw [Magnitude.ofDigits, digitsValue_of_mem_numeral h]

theorem spanDigits_numeral {ds : List Char} (h : ds ∈ numeral n) (hrest : NoDigit rest) :
    spanDigits (ds ++ rest) = (ds, rest) :=
  spanDigits_append (fun _ hc ↦ isDigit_of_mem_numeral h hc) hrest

theorem exists_head_of_mem_numeral {ds : List Char} (h : ds ∈ numeral n) :
    ∃ d tail, ds = d :: tail ∧ d.isDigit = true := by
  obtain ⟨d, tail, rfl⟩ := List.exists_cons_of_ne_nil (ne_nil_of_mem_numeral h)
  exact ⟨d, tail, rfl, isDigit_of_mem_numeral h List.mem_cons_self⟩

theorem isSeparator_of_isDigit {c : Char} (h : c.isDigit = true) : isSeparator c = false := by
  refine Bool.eq_false_iff.2 fun hsep ↦ ?_
  have := Text.isDigit_iff.1 h
  have := code_of_isSeparator hsep
  omega

theorem segment?_of_noDigit (h : NoDigit cs) : segment? cs = none := by
  rw [segment?, spanDigits_of_noDigit h]

theorem segment?_numeral {ds : List Char} (h : ds ∈ numeral n) (hrest : NoDigit rest) :
    segment? (ds ++ rest) = some (.ofNat n, rest) := by
  obtain ⟨d, tail, rfl⟩ := List.exists_cons_of_ne_nil (ne_nil_of_mem_numeral h)
  rw [segment?, spanDigits_numeral h hrest, ← ofDigits_of_mem_numeral h]

/-- The number at the front of a text, behind a separator or at once, and what follows it. -/
def spanNumber (cs : List Char) : Magnitude × List Char :=
  (.ofDigits (spanDigits (skipSeparator cs)).1, (spanDigits (skipSeparator cs)).2)

theorem labelled?_eq {α : Type} (table : List (String × α)) (cs : List Char) :
    labelled? table cs = (Text.firstWord? table (skipSeparator cs)).map fun p ↦
      ((p.1, (spanNumber p.2).1), (spanNumber p.2).2) := by
  rw [labelled?]
  cases Text.firstWord? table (skipSeparator cs) with
  | none => rw [Option.map_none, Option.map_none]
  | some p => simp only [Option.map_some, spanNumber]

/-- A number with a separator before it, or a separator alone, is read off. -/
theorem exists_spanNumber_of_marked (hT : ∀ cs ∈ T, NoDigit cs) (h : cs ∈ marked n * T) :
    ∃ rest ∈ T, spanNumber cs = (.ofNat n, rest) := by
  obtain ⟨front, hfront, rest, hrest, rfl⟩ := h
  refine ⟨rest, hrest, ?_⟩
  rcases hfront with ⟨sep, hsep, ds, hds, rfl⟩ | ⟨sep, hsep, empty, ⟨rfl, rfl⟩, rfl⟩
  · have hskip : skipSeparator (sep ++ ds ++ rest) = ds ++ rest := by
      rcases hsep with rfl | hsep
      · obtain ⟨d, tail, rfl, hd⟩ := exists_head_of_mem_numeral hds
        exact skipSeparator_of_head (isSeparator_of_isDigit hd) _
      · obtain ⟨c, hc, rfl⟩ := mem_separator_iff.1 hsep
        exact skipSeparator_cons hc _
    rw [spanNumber, hskip, spanDigits_numeral hds (hT rest hrest), ofDigits_of_mem_numeral hds]
  · obtain ⟨c, hc, rfl⟩ := mem_separator_iff.1 hsep
    have hskip : skipSeparator ([c] ++ [] ++ rest) = rest := skipSeparator_cons hc rest
    rw [spanNumber, hskip, spanDigits_of_noDigit (hT rest hrest)]
    rfl

/-- Where a number is left out the separator of the next part is taken for its own. -/
theorem exists_spanNumber_of_omitted (hT : Follows letters T) (h : cs ∈ omitted n * T) :
    ∃ rest ∈ T, spanNumber cs = (.ofNat n, rest) := by
  obtain ⟨empty, ⟨rfl, rfl⟩, rest, hrest, rfl⟩ := h
  refine ⟨skipSeparator rest, hT.skip rest hrest, ?_⟩
  show spanNumber rest = (.ofNat 0, skipSeparator rest)
  rw [spanNumber, spanDigits_of_noDigit (hT.opens rest hrest).noDigit_skipSeparator]
  rfl

theorem afterWord_of_mem_marked (h : cs ∈ marked n * T) : AfterWord letters cs := by
  obtain ⟨front, hfront, rest, -, rfl⟩ := h
  rcases hfront with ⟨sep, hsep, ds, hds, rfl⟩ | ⟨sep, hsep, empty, ⟨rfl, rfl⟩, rfl⟩
  · rcases hsep with rfl | hsep
    · obtain ⟨d, tail, rfl, hd⟩ := exists_head_of_mem_numeral hds
      exact forall_head_cons (.inr (.inl hd))
    · obtain ⟨d, hd, rfl⟩ := mem_separator_iff.1 hsep
      exact forall_head_cons (.inl hd)
  · obtain ⟨d, hd, rfl⟩ := mem_separator_iff.1 hsep
    exact forall_head_cons (.inl hd)

theorem afterWord_of_mem_number (hT : Follows letters T) :
    ∀ cs ∈ marked n * S + omitted n * T, AfterWord letters cs := by
  rintro cs (hcs | ⟨empty, ⟨rfl, -⟩, rest, hrest, rfl⟩)
  · exact afterWord_of_mem_marked hcs
  · exact (hT.opens rest hrest).afterWord

/-- **A label with its number is read off.** What follows may have to be told from the number: where
the number is left out it has to be something that opens with a letter. -/
theorem exists_labelled? {α : Type} {table : List (String × α)} {meaning : α}
    {words : List String} (htable : IsWordTable table)
    (hmeans : Means table words meaning letters) {firsts : List Char}
    (hwords : BeginWith words firsts) (hS : ∀ cs ∈ S, NoDigit cs) (hS' : Follows letters S')
    (hsub : ∀ cs ∈ S', cs ∈ S)
    (h : cs ∈ label words * (marked n * S + omitted n * S')) :
    ∃ rest ∈ S, labelled? table cs = some ((meaning, .ofNat n), rest) := by
  obtain ⟨mid, hmid, hword⟩ :=
    exists_firstWord? htable hmeans hwords (afterWord_of_mem_number hS') h
  obtain ⟨rest, hrest, hnumber⟩ : ∃ rest ∈ S, spanNumber mid = (.ofNat n, rest) := by
    rcases hmid with hmid | hmid
    · exact exists_spanNumber_of_marked hS hmid
    · obtain ⟨rest, hrest, hnumber⟩ := exists_spanNumber_of_omitted hS' hmid
      exact ⟨rest, hsub rest hrest, hnumber⟩
  refine ⟨rest, hrest, ?_⟩
  rw [labelled?_eq, hword, Option.map_some, hnumber]

theorem labelled?_eq_none {α : Type} {table : List (String × α)}
    (h : Text.firstWord? table (skipSeparator cs) = none) : labelled? table cs = none := by
  rw [labelled?, h, Option.map_none]

/-- What opens with other letters is no label of the table. -/
theorem labelled?_eq_none_of_opens {α : Type} {table : List (String × α)}
    (htable : IsWordTable table) (h : Opens letters cs)
    (hstop : Ends table [] letters) : labelled? table cs = none := by
  refine labelled?_eq_none (firstWord?_eq_none htable (fun c hc ↦ ?_) hstop)
  exact .inr (.inr (h c hc))

/-! ### Labels that may be left out -/

section Option

variable {α : Type} {table : List (String × α)} {meaning : α} {words : List String}
  {firsts : List Char} {number : Option ℕ}

theorem follows_labelled (hwords : BeginWith words firsts) (hT : Follows letters T)
    (number : Option ℕ) : Follows (firsts ++ letters) (labelledSpellings words number * T) := by
  cases number with
  | none =>
    rw [labelledSpellings, one_mul]
    exact hT.mono (List.subset_append_right firsts letters)
  | some n =>
    rw [labelledSpellings, mul_assoc]
    exact (follows_label hwords _).mono (List.subset_append_left firsts letters)

/-- A label is read off where there is one, and nothing where there is none. -/
theorem exists_labelled?_elim (htable : IsWordTable table)
    (hmeans : Means table words meaning letters) (hwords : BeginWith words firsts)
    (hstop : Ends table [] letters) (hT : Follows letters T)
    (h : cs ∈ labelledSpellings words number * T) :
    ∃ rest ∈ T, ((labelled? table cs).elim (none, cs) fun p ↦ (some p.1.2, p.2)) =
      (number.map .ofNat, rest) := by
  cases number with
  | none =>
    rw [labelledSpellings, one_mul] at h
    refine ⟨cs, h, ?_⟩
    rw [labelled?_eq_none_of_opens htable (hT.opens cs h) hstop, Option.elim_none, Option.map_none]
  | some n =>
    rw [labelledSpellings, mul_assoc, add_mul] at h
    obtain ⟨rest, hrest, hread⟩ :=
      exists_labelled? htable hmeans hwords hT.noDigit hT (fun _ hcs ↦ hcs) h
    refine ⟨rest, hrest, ?_⟩
    rw [hread, Option.elim_some, Option.map_some]

end Option

end IndexSnapshot.Version
