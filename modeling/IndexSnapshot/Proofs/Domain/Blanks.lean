import IndexSnapshot.Proofs.Domain.Ascii

/-!
# Blanks in domain names

Blanks are the space and the controls below it. No table says anything about them: none of them
stands for another character, is taken apart, or is joined with its neighbours. So the ASCII form of
a name has all blanks of the name in it (`mem_toAscii?`), and a name with blanks has none that may
be used.
-/

namespace IndexSnapshot.Domain

variable {c : Char} {cs : List Char}

theorem le_space_iff : c ≤ ' ' ↔ c.toNat ≤ 32 := Iff.rfl

/-! ### The table of pairs -/

theorem value_readRecord (previous : ℕ) (text : List Char) :
    (readRecord previous text).value = (Text.cutAt (· = '=') text).2.getD [] := by
  unfold readRecord
  dsimp only
  split <;> rfl

/-- What a record knows does not depend on where it stands. -/
theorem numbers_readRecord (previous : ℕ) (text : List Char) :
    (readRecord previous text).numbers = (readRecord 0 text).numbers := by
  rw [Record.numbers, Record.numbers, value_readRecord, value_readRecord]

theorem le_first_readRecord (previous : ℕ) (text : List Char) :
    previous ≤ (readRecord previous text).first := by
  unfold readRecord
  dsimp only
  split <;> exact Nat.le_add_right _ _

/-- Records stand in the order of their characters. -/
theorem le_first_of_mem {previous : ℕ} {texts : List (List Char)} {r : Record}
    (h : r ∈ readRecordsFrom previous texts) : previous ≤ r.first := by
  induction texts generalizing previous with
  | nil => cases h
  | cons text texts ih =>
    have hfirst := le_first_readRecord previous text
    rcases List.mem_cons.1 h with rfl | h
    · exact hfirst
    · exact hfirst.trans (ih h)

theorem exists_of_mem_readRecordsFrom {previous : ℕ} {texts : List (List Char)} {r : Record}
    (h : r ∈ readRecordsFrom previous texts) :
    ∃ text ∈ texts, r.numbers = (readRecord 0 text).numbers := by
  induction texts generalizing previous with
  | nil => cases h
  | cons text texts ih =>
    rcases List.mem_cons.1 h with rfl | h
    · exact ⟨text, List.mem_cons_self, numbers_readRecord previous text⟩
    · obtain ⟨text', htext, hnumbers⟩ := ih h
      exact ⟨text', List.mem_cons_of_mem text htext, hnumbers⟩

/-- The records of a table as they are written. -/
def recordTexts (cs : List Char) : List (List Char) :=
  (Text.splitAtMarks (fun c ↦ c = ' ' || c = '\n') cs).filter fun word ↦ !word.isEmpty

/-- The first record is about a character beyond the blanks, and no record knows of a blank. -/
def lacksBlanks (texts : List (List Char)) : Bool :=
  (texts.head?.any fun text ↦ 32 < (readRecord 0 text).first) &&
    texts.all fun text ↦ (readRecord 0 text).numbers.all fun n ↦ 32 < n

set_option maxRecDepth 100000 in
theorem lacksBlanks_pairText : lacksBlanks (recordTexts pairText.toList) = true := by
  rw [pairText, String.toList_ofList]
  decide +kernel

theorem lt_first_of_mem_pairTable {r : Record} (h : r ∈ pairTable) : 32 < r.first := by
  have hlacks := (Bool.and_eq_true_iff.1 lacksBlanks_pairText).1
  change r ∈ readRecordsFrom 0 (recordTexts pairText.toList) at h
  generalize recordTexts pairText.toList = texts at h hlacks
  rcases texts with _ | ⟨text, texts⟩
  · cases h
  · have hfirst : 32 < (readRecord 0 text).first := of_decide_eq_true hlacks
    rcases List.mem_cons.1 h with rfl | h
    · exact hfirst
    · exact hfirst.trans_le (le_first_of_mem h)

theorem lt_of_mem_numbers {r : Record} (h : r ∈ pairTable) {n : ℕ} (hn : n ∈ r.numbers) :
    32 < n := by
  have hlacks := List.all_eq_true.1 (Bool.and_eq_true_iff.1 lacksBlanks_pairText).2
  obtain ⟨text, htext, hnumbers⟩ := exists_of_mem_readRecordsFrom h
  have hall := List.all_eq_true.1 (hlacks text htext)
  exact of_decide_eq_true (hall n (hnumbers ▸ hn))

/-! ### Composed names -/

section Compose

variable (hc : c ≤ ' ')

include hc

theorem placeIn?_of_blank {row : ℕ × ℕ} (hrow : 32 < row.1) : placeIn? row c = none := by
  have hcode := le_space_iff.1 hc
  exact if_neg (by omega)

theorem takeApart_of_blank : takeApart c = [c] := by
  have hcode := le_space_iff.1 hc
  have hrecord : record? pairTable c = none := by
    rw [record?, List.find?_eq_none]
    intro r hr habout
    have hfirst := lt_first_of_mem_pairTable hr
    simp only [Record.isAbout, Bool.and_eq_true, decide_eq_true_iff] at habout
    omega
  rw [takeApart, placeIn?_of_blank hc (by decide), hrecord]
  rfl

theorem join?_of_blank {a b : Char} (h : c = a ∨ c = b) : join? a b = none := by
  have hcode := le_space_iff.1 hc
  have hpair : (pairTable.find? fun r ↦ r.numbers = [a.toNat, b.toNat]) = none := by
    rw [List.find?_eq_none]
    intro r hr hnumbers
    have hmem : c.toNat ∈ r.numbers := by
      rw [of_decide_eq_true hnumbers]
      rcases h with rfl | rfl <;> simp
    have hlt := lt_of_mem_numbers hr hmem
    omega
  have hhangul : joinHangul? a b = none := by
    rcases h with rfl | rfl
    · rw [joinHangul?, placeIn?_of_blank hc (by decide), placeIn?_of_blank hc (by decide)]
    · have hvowel : placeIn? vowels c = none := placeIn?_of_blank hc (by decide)
      have hfinal : placeIn? finals c = none := placeIn?_of_blank hc (by decide)
      rw [joinHangul?, hvowel, hfinal]
      cases placeIn? initials a <;> cases placeIn? syllables a <;> rfl
  rw [join?, hhangul, hpair]
  rfl

theorem mem_decompose (h : c ∈ cs) : c ∈ decompose cs := by
  have hstep : ∀ cs : List Char, c ∈ cs → c ∈ cs.flatMap takeApart := fun cs h ↦
    List.mem_flatMap.2 ⟨c, h, by rw [takeApart_of_blank hc]; exact List.mem_singleton_self c⟩
  exact hstep _ (hstep _ (hstep _ (hstep cs h)))

omit hc in
theorem mem_insertMark {d : Char} : c ∈ insertMark d cs ↔ c = d ∨ c ∈ cs := by
  induction cs with
  | nil => simp [insertMark]
  | cons e cs ih =>
    rw [insertMark]
    split
    · rw [List.mem_cons, ih, List.mem_cons]
      exact or_left_comm
    · exact List.mem_cons

omit hc in
theorem mem_orderMarks : c ∈ orderMarks cs ↔ c ∈ cs := by
  have hfold : ∀ ds, c ∈ cs.foldl (fun ds c ↦ insertMark c ds) ds ↔ c ∈ cs ∨ c ∈ ds := by
    induction cs with
    | nil => simp
    | cons d cs ih =>
      intro ds
      rw [List.foldl_cons, ih, mem_insertMark, List.mem_cons]
      exact or_left_comm.trans or_assoc.symm
  rw [orderMarks, List.mem_reverse, hfold]
  simp

theorem mem_joinWith {letter : Char} {marks : List Char} (h : c = letter ∨ c ∈ marks ∨ c ∈ cs) :
    c ∈ joinWith letter marks cs := by
  induction cs generalizing letter marks with
  | nil => simpa [joinWith] using h
  | cons d cs ih =>
    rw [joinWith]
    split
    · -- what has been joined is no blank
      rename_i joined hjoined
      have hjoin : join? letter d = some joined := by
        split at hjoined
        · exact hjoined
        · cases hjoined
      have hne : ¬ (c = letter ∨ c = d) := fun heq ↦ by
        rw [join?_of_blank hc heq] at hjoin
        cases hjoin
      rw [not_or] at hne
      rcases h with h | h | h
      · exact absurd h hne.1
      · exact ih (.inr (.inl h))
      · exact ih (.inr (.inr ((List.mem_cons.1 h).resolve_left hne.2)))
    · rw [List.mem_cons] at h
      split
      · rw [List.mem_append, List.mem_cons, List.mem_reverse]
        rcases h with h | h | h | h
        · exact .inl (.inl h)
        · exact .inl (.inr h)
        · exact .inr (ih (.inl h))
        · exact .inr (ih (.inr (.inr h)))
      · refine ih ?_
        rw [List.mem_cons]
        rcases h with h | h | h | h
        · exact .inl h
        · exact .inr (.inl (.inr h))
        · exact .inr (.inl (.inl h))
        · exact .inr (.inr h)

theorem mem_joinAll (h : c ∈ cs) : c ∈ joinAll cs := by
  induction cs with
  | nil => cases h
  | cons d cs ih =>
    rw [joinAll]
    rcases List.mem_cons.1 h with h | h
    · split
      · exact mem_joinWith hc (.inl h)
      · exact h ▸ List.mem_cons_self
    · split
      · exact mem_joinWith hc (.inr (.inr h))
      · exact List.mem_cons_of_mem d (ih h)

theorem mem_compose (h : c ∈ cs) : c ∈ compose cs :=
  mem_joinAll hc (mem_orderMarks.2 (mem_decompose hc h))

theorem mapChar?_of_blank : mapChar? c = some [c] := by
  have hcode := le_space_iff.1 hc
  have hlower : c.toLower = c := by
    rw [← Char.toNat_inj, Text.toNat_toLower, if_neg (by omega)]
  rw [mapChar?, if_pos (by omega), hlower]

theorem mem_prepare? {out : List Char} (h : prepare? cs = some out) (hmem : c ∈ cs) : c ∈ out := by
  unfold prepare? at h
  split at h
  · cases h
    have hlower : c.toLower = c := by
      have hcode := le_space_iff.1 hc
      rw [← Char.toNat_inj, Text.toNat_toLower, if_neg (by omega)]
    exact List.mem_map.2 ⟨c, hmem, hlower⟩
  · obtain ⟨mapped, hmapped, rfl⟩ := Option.map_eq_some_iff.1 h
    obtain ⟨outs, houts, rfl⟩ := Option.map_eq_some_iff.1 hmapped
    obtain ⟨target, htarget, hchar⟩ := Text.exists_mem_of_mapM houts hmem
    rw [mapChar?_of_blank hc] at hchar
    cases hchar
    exact mem_compose hc (List.mem_flatten.2 ⟨_, htarget, List.mem_singleton_self c⟩)

end Compose

/-! ### Labels -/

namespace Punycode

theorem written_prefix_pass (ascii code : ℕ) (w : Writing) (d : Char) :
    w.written <+: (pass ascii code w d).written := by
  unfold pass
  split_ifs
  · exact List.prefix_rfl
  · exact List.prefix_append _ _
  · exact List.prefix_rfl

theorem written_prefix_foldl (ascii code : ℕ) (label : List Char) (w : Writing) :
    w.written <+: (label.foldl (pass ascii code) w).written := by
  induction label generalizing w with
  | nil => exact List.prefix_rfl
  | cons d label ih => exact (written_prefix_pass ascii code w d).trans (ih _)

theorem written_prefix_putIn (label : List Char) (ascii next : ℕ) (w : Writing) (codes : List ℕ) :
    w.written <+: (putIn label ascii next w codes).written := by
  induction codes generalizing w next with
  | nil => exact List.prefix_rfl
  | cons code codes ih =>
    rw [putIn]
    refine List.IsPrefix.trans ?_ (ih (code + 1) _)
    exact written_prefix_foldl ascii code label
      { w with passed := w.passed + (code - next) * (w.letters + 1) }

/-- The ASCII form of a label has all ASCII characters of the label in it. -/
theorem mem_encode {label : List Char} (hascii : isAscii c = true) (h : c ∈ label) :
    c ∈ encode label := by
  have hplain : c ∈ label.filter isAscii := List.mem_filter.2 ⟨h, hascii⟩
  have hne : (label.filter isAscii).isEmpty = false :=
    List.isEmpty_eq_false_iff.2 (List.ne_nil_of_mem hplain)
  rw [encode, hne]
  exact (written_prefix_putIn label _ 128 _ _).subset (List.mem_append_left _ hplain)

end Punycode

/-- The ASCII form of a label has all ASCII characters of the label in it. -/
theorem mem_labelToAscii? {label out : List Char} (hascii : Punycode.isAscii c = true)
    (h : labelToAscii? label = some out) (hmem : c ∈ label) : c ∈ out := by
  unfold labelToAscii? at h
  split at h
  · split at h
    · cases h
      exact hmem
    · cases h
  · split at h
    · cases h
      exact hmem
    · split at h
      · cases h
        exact List.mem_append_right _ (Punycode.mem_encode hascii hmem)
      · cases h

/-- **The ASCII form of a name has all blanks of the name in it.** -/
theorem mem_toAscii? {name out : List Char} (hc : c ≤ ' ') (h : toAscii? name = some out)
    (hmem : c ∈ name) : c ∈ out := by
  obtain ⟨prepared, hprepared, h⟩ := Option.bind_eq_some_iff.1 h
  obtain ⟨labels, hlabels, h⟩ := Option.bind_eq_some_iff.1 h
  cases h
  have hpoint : c ≠ '.' := by
    rintro rfl
    exact absurd hc (by decide)
  have hascii : Punycode.isAscii c = true := by
    have hcode := le_space_iff.1 hc
    exact decide_eq_true (by omega)
  have hmem := mem_prepare? hc hprepared hmem
  rw [← Text.intercalate_splitAtMarks '.' prepared] at hmem
  obtain ⟨label, hlabel, hmem⟩ := (Text.of_mem_intercalate hmem).resolve_left hpoint
  obtain ⟨out, hout, hlabel⟩ := Text.exists_mem_of_mapM hlabels hlabel
  exact Text.mem_intercalate hout (mem_labelToAscii? hascii hlabel hmem)

end IndexSnapshot.Domain
