import IndexSnapshot.Proofs.Version.Numbers
import IndexSnapshot.Proofs.Version.Spelling

/-!
# The texts that are read

A text is read as a version exactly when it is in the language of version identifiers
(`parse?_isSome_iff`).

What a reader takes off a text is in the language of its part: where it leaves a text in `T`, it was
given one in `part * T`. So every text that is read is in the language. The other way, reading never
turns back, and the language lets a text be taken apart in more than one way. But every text of it
is the spelling of some identifier (`exists_mem_spellings`), and spellings are read.
-/

namespace IndexSnapshot.Version

open Grammar Number
open scoped Computability

variable {cs rest : List Char} {n : Magnitude} {l T : Language Char}

/-! ### What readers take -/

theorem mem_blanks_mul_of_trimStart (h : Text.trimStart cs ∈ T) : cs ∈ blanks * T := by
  rw [← List.takeWhile_append_dropWhile (p := Text.isBlank) (l := cs)]
  exact Language.append_mem_mul (fun c hc ↦ List.all_eq_true.1 List.all_takeWhile c hc) h

theorem mem_optional_mul_of_skipMark (h : skipMark cs ∈ T) :
    cs ∈ optional (anyWord ["v"]) * T := by
  cases cs with
  | nil => exact mem_optional_mul_iff.2 (.inl h)
  | cons c cs =>
    rw [skipMark] at h
    by_cases hc : c.toLower = 'v'
    · rw [if_pos hc] at h
      have hmark : [c] ∈ anyWord ["v"] := by
        refine ⟨"v", List.mem_singleton_self _, ?_⟩
        rw [Text.lower, List.map_singleton, hc]
        rfl
      exact mem_optional_mul_iff.2 (.inr (Language.append_mem_mul hmark h))
    · rw [if_neg hc] at h
      exact mem_optional_mul_iff.2 (.inl h)

theorem mem_optional_mul_of_skipSeparator (h : skipSeparator cs ∈ T) :
    cs ∈ optional separator * T := by
  cases cs with
  | nil => exact mem_optional_mul_iff.2 (.inl h)
  | cons c cs =>
    cases hc : isSeparator c with
    | true =>
      rw [skipSeparator_cons hc] at h
      have hsep : [c] ∈ separator := mem_separator_iff.2 ⟨c, hc, rfl⟩
      exact mem_optional_mul_iff.2 (.inr (Language.append_mem_mul hsep h))
    | false =>
      rw [skipSeparator_of_head hc] at h
      exact mem_optional_mul_iff.2 (.inl h)

theorem mem_optional_mul_of_spanDigits (h : (spanDigits cs).2 ∈ T) :
    cs ∈ optional digits * T := by
  rw [mem_optional_mul_iff]
  by_cases hne : cs.takeWhile Char.isDigit = []
  · left
    rw [← List.takeWhile_append_dropWhile (p := Char.isDigit) (l := cs), hne]
    exact h
  · exact .inr (mem_run_mul_of_dropWhile hne h)

theorem mem_digits_mul_of_segment? (h : segment? cs = some (n, rest)) (hrest : rest ∈ T) :
    cs ∈ digits * T := by
  unfold segment? at h
  split at h
  · cases h
  · rename_i ds tail hne hspan
    obtain ⟨htake, hdrop⟩ := Prod.mk.inj hspan
    obtain rfl : tail = rest := (Prod.mk.inj (Option.some.inj h)).2
    exact mem_run_mul_of_dropWhile (htake ▸ hne) (hdrop ▸ hrest)

theorem mem_optional_mul_of_spanEpoch (h : (spanEpoch cs).2 ∈ T) :
    cs ∈ optional (digits * single '!') * T := by
  rw [mem_optional_mul_iff, mul_assoc]
  unfold spanEpoch at h
  split at h
  · rename_i d ds rest hspan
    obtain ⟨htake, hdrop⟩ := Prod.mk.inj hspan
    refine .inr (mem_run_mul_of_dropWhile ?_ ?_)
    · rw [htake]
      exact List.cons_ne_nil d ds
    · rw [hdrop]
      exact cons_mem_single_mul h
  · exact .inl h

theorem mem_kstar_mul_of_moreSegments (h : (moreSegments cs).2 ∈ T) :
    cs ∈ (single '.' * digits)∗ * T := by
  fun_induction moreSegments cs with
  | case1 tail n rest hsegment ns rest' hmore ih =>
    rw [hmore] at ih
    have htail := mem_digits_mul_of_segment? hsegment (ih h)
    rw [mem_kstar_mul_iff, mul_assoc]
    exact .inr (cons_mem_single_mul htail)
  | case2 tail hsegment => exact mem_kstar_mul_iff.2 (.inl h)
  | case3 cs hpoint => exact mem_kstar_mul_iff.2 (.inl h)

theorem mem_of_release? {ns : List Magnitude} (h : release? cs = some (ns, rest))
    (hrest : rest ∈ T) : cs ∈ digits * (single '.' * digits)∗ * T := by
  obtain ⟨⟨n, mid⟩, hsegment, hmore⟩ := Option.bind_eq_some_iff.1 h
  obtain ⟨-, rfl⟩ := Prod.mk.inj (Option.some.inj hmore)
  rw [mul_assoc]
  exact mem_digits_mul_of_segment? hsegment (mem_kstar_mul_of_moreSegments hrest)

/-! ### Labels -/

section Labels

variable {α : Type} {table : List (String × α)} {words : List String}

theorem mem_anyWord_mul_of_firstWord? (hwords : table.map Prod.fst = words) {meaning : α}
    (h : Text.firstWord? table cs = some (meaning, rest)) (hrest : rest ∈ T) :
    cs ∈ anyWord words * T := by
  obtain ⟨entry, hentry, hstrip⟩ := List.exists_of_findSome?_eq_some h
  obtain ⟨rest', hword, heq⟩ := Option.map_eq_some_iff.1 hstrip
  obtain ⟨taken, rfl, htaken⟩ := Text.stripWord?_eq_some.1 hword
  obtain rfl : rest' = rest := (Prod.mk.inj heq).2
  exact Language.append_mem_mul ⟨entry.1, hwords ▸ List.mem_map_of_mem hentry, htaken⟩ hrest

theorem mem_numbered_mul_of_labelled? (hwords : table.map Prod.fst = words)
    {value : α × Magnitude} (h : labelled? table cs = some (value, rest)) (hrest : rest ∈ T) :
    cs ∈ numbered words * T := by
  rw [labelled?_eq] at h
  obtain ⟨⟨meaning, mid⟩, hword, heq⟩ := Option.map_eq_some_iff.1 h
  have hmid : (spanDigits (skipSeparator mid)).2 ∈ T := by
    rw [show (spanDigits (skipSeparator mid)).2 = rest from (Prod.mk.inj heq).2]
    exact hrest
  rw [numbered, label, mul_assoc, mul_assoc, mul_assoc]
  exact mem_optional_mul_of_skipSeparator <| mem_anyWord_mul_of_firstWord? hwords hword <|
    mem_optional_mul_of_skipSeparator <| mem_optional_mul_of_spanDigits hmid

end Labels

theorem mem_optional_mul_of_spanPre (h : (spanPre cs).2 ∈ T) :
    cs ∈ optional (numbered preLabels) * T := by
  rw [mem_optional_mul_iff]
  unfold spanPre at h
  split at h
  · rename_i hread
    exact .inr (mem_numbered_mul_of_labelled? rfl hread h)
  · exact .inl h

theorem mem_optional_mul_of_labelledPost (h : (spanPost.labelledPost cs).2 ∈ T) :
    cs ∈ optional (single '-' * digits + numbered postLabels) * T := by
  rw [mem_optional_mul_iff, add_mul]
  unfold spanPost.labelledPost at h
  split at h
  · rename_i hread
    exact .inr (.inr (mem_numbered_mul_of_labelled? rfl hread h))
  · exact .inl h

theorem mem_optional_mul_of_spanPost (h : (spanPost cs).2 ∈ T) :
    cs ∈ optional (single '-' * digits + numbered postLabels) * T := by
  unfold spanPost at h
  split at h
  · rename_i tail
    split at h
    · rename_i hsegment
      rw [mem_optional_mul_iff, add_mul, mul_assoc]
      exact .inr (.inl (cons_mem_single_mul (mem_digits_mul_of_segment? hsegment h)))
    · exact mem_optional_mul_of_labelledPost h
  · exact mem_optional_mul_of_labelledPost h

theorem mem_optional_mul_of_spanDev (h : (spanDev cs).2 ∈ T) :
    cs ∈ optional (numbered devLabels) * T := by
  rw [mem_optional_mul_iff]
  unfold spanDev at h
  split at h
  · rename_i hread
    exact .inr (mem_numbered_mul_of_labelled? rfl hread h)
  · exact .inl h

/-! ### Local labels -/

theorem mem_alphanums_mul_of_localRun? {p : LocalPart} (h : localRun? cs = some (p, rest))
    (hrest : rest ∈ T) : cs ∈ alphanums * T := by
  unfold localRun? at h
  split at h
  · cases h
  · rename_i run hne
    obtain rfl : cs.dropWhile Char.isAlphanum = rest := (Prod.mk.inj (Option.some.inj h)).2
    exact mem_run_mul_of_dropWhile hne hrest

theorem mem_kstar_mul_of_moreLocal (h : (moreLocal cs).2 ∈ T) :
    cs ∈ (separator * alphanums)∗ * T := by
  fun_induction moreLocal cs with
  | case1 c tail hc p rest hrun ps rest' hmore ih =>
    rw [hmore] at ih
    have htail := mem_alphanums_mul_of_localRun? hrun (ih h)
    have hsep : [c] ∈ separator := mem_separator_iff.2 ⟨c, hc, rfl⟩
    rw [mem_kstar_mul_iff, mul_assoc]
    exact .inr (Language.append_mem_mul hsep htail)
  | case2 c tail hc hrun => exact mem_kstar_mul_iff.2 (.inl h)
  | case3 c tail hc => exact mem_kstar_mul_iff.2 (.inl h)
  | case4 => exact mem_kstar_mul_iff.2 (.inl h)

theorem mem_optional_mul_of_spanLocal (h : (spanLocal cs).2 ∈ T) :
    cs ∈ optional (single '+' * (alphanums * (separator * alphanums)∗)) * T := by
  rw [mem_optional_mul_iff, mul_assoc, mul_assoc]
  unfold spanLocal at h
  split at h
  · rename_i tail
    split at h
    · rename_i hrun
      have htail := mem_alphanums_mul_of_localRun? hrun (mem_kstar_mul_of_moreLocal h)
      exact .inr (cons_mem_single_mul htail)
    · exact .inl h
  · exact .inl h

/-- What is read as a version is in the language. -/
theorem mem_language_of_parse? {text : String} {v : Version} (h : parse? text = some v) :
    text.toList ∈ language := by
  obtain ⟨⟨release, cs⟩, hrelease, hrest⟩ := Option.bind_eq_some_iff.1 h
  have hblanks : (spanLocal (spanDev (spanPost (spanPre cs).2).2).2).2 ∈ blanks := by
    dsimp only at hrest
    split at hrest
    · exact List.all_eq_true.1 ‹_›
    · cases hrest
  simp only [language, mul_assoc]
  refine mem_blanks_mul_of_trimStart <| mem_optional_mul_of_skipMark <|
    mem_optional_mul_of_spanEpoch ?_
  rw [← mul_assoc]
  exact mem_of_release? hrelease <| mem_optional_mul_of_spanPre <| mem_optional_mul_of_spanPost <|
    mem_optional_mul_of_spanDev <| mem_optional_mul_of_spanLocal hblanks

/-! ### Every text of the language is a spelling -/

theorem exists_mem_numeral (h : cs ∈ digits) : ∃ n, cs ∈ numeral n :=
  ⟨_, mem_numeral_digitsValue h.1 h.2⟩

theorem exists_mem_epochSpellings (h : cs ∈ optional (digits * single '!')) :
    ∃ n, cs ∈ epochSpellings n := by
  rcases h with rfl | ⟨ds, hds, mark, hmark, rfl⟩
  · exact ⟨0, .inr ⟨rfl, rfl⟩⟩
  · obtain ⟨n, hn⟩ := exists_mem_numeral hds
    exact ⟨n, .inl (Language.append_mem_mul hn hmark)⟩

/-- Pieces one after another, each a spelling of something. -/
theorem exists_mem_prod {ι : Type} {f : ι → Language Char} (hl : ∀ cs ∈ l, ∃ i, cs ∈ f i)
    (h : cs ∈ l∗) : ∃ is : List ι, cs ∈ (is.map f).prod := by
  obtain ⟨pieces, rfl, hpieces⟩ := Language.mem_kstar.1 h
  clear h
  induction pieces with
  | nil => exact ⟨[], rfl⟩
  | cons piece pieces ih =>
    obtain ⟨i, hi⟩ := hl piece (hpieces piece List.mem_cons_self)
    obtain ⟨is, his⟩ := ih fun other hother ↦ hpieces other (List.mem_cons_of_mem piece hother)
    refine ⟨i :: is, ?_⟩
    rw [List.map_cons, List.prod_cons, List.flatten_cons]
    exact Language.append_mem_mul hi his

theorem exists_mem_releaseSpellings (h : cs ∈ digits * (single '.' * digits)∗) :
    ∃ n ns, cs ∈ releaseSpellings n ns := by
  obtain ⟨ds, hds, more, hmore, rfl⟩ := h
  obtain ⟨n, hn⟩ := exists_mem_numeral hds
  have hminor : ∀ cs ∈ single '.' * digits, ∃ n, cs ∈ single '.' * numeral n := by
    rintro cs ⟨point, hpoint, ds, hds, rfl⟩
    obtain ⟨n, hn⟩ := exists_mem_numeral hds
    exact ⟨n, Language.append_mem_mul hpoint hn⟩
  obtain ⟨ns, hns⟩ := exists_mem_prod hminor hmore
  exact ⟨n, ns, Language.append_mem_mul hn hns⟩

/-- Behind a label stands a number, or a zero is left out. -/
theorem exists_mem_marked_add_omitted (h : cs ∈ optional separator * optional digits) :
    ∃ n, cs ∈ marked n ∨ cs ∈ omitted n := by
  obtain ⟨sep, hsep, ds, hds, rfl⟩ := h
  rcases hds with rfl | hds
  · rcases hsep with rfl | hsep
    · exact ⟨0, .inr ⟨rfl, rfl⟩⟩
    · exact ⟨0, .inl (.inr (Language.append_mem_mul hsep ⟨rfl, rfl⟩))⟩
  · obtain ⟨n, hn⟩ := exists_mem_numeral hds
    exact ⟨n, .inl (.inl (Language.append_mem_mul hsep hn))⟩

theorem exists_mem_numbered {words : List String} (h : cs ∈ numbered words) :
    ∃ n, cs ∈ label words * (marked n + omitted n) := by
  rw [numbered, mul_assoc] at h
  obtain ⟨front, hfront, number, hnumber, rfl⟩ := h
  obtain ⟨n, hn⟩ := exists_mem_marked_add_omitted hnumber
  exact ⟨n, Language.append_mem_mul hfront hn⟩

theorem exists_mem_labelledSpellings {words : List String} (h : cs ∈ optional (numbered words)) :
    ∃ number, cs ∈ labelledSpellings words number := by
  rcases h with rfl | h
  · exact ⟨none, rfl⟩
  · obtain ⟨n, hn⟩ := exists_mem_numbered h
    exact ⟨some n, hn⟩

theorem exists_mem_phase_words {word : String} (h : word ∈ preLabels) :
    ∃ phase : Phase, word ∈ phase.words := by
  have hall : ∀ word ∈ preLabels, word ∈ Phase.alpha.words ∨ word ∈ Phase.beta.words ∨
      word ∈ Phase.candidate.words := by decide
  rcases hall word h with hword | hword | hword
  exacts [⟨_, hword⟩, ⟨_, hword⟩, ⟨_, hword⟩]

theorem exists_mem_postSpellings
    (h : cs ∈ optional (single '-' * digits + numbered postLabels)) :
    (∃ n, cs ∈ single '-' * numeral n) ∨ ∃ post, cs ∈ labelledSpellings postLabels post := by
  rcases h with rfl | ⟨hyphen, hhyphen, ds, hds, rfl⟩ | h
  · exact .inr ⟨none, rfl⟩
  · obtain ⟨n, hn⟩ := exists_mem_numeral hds
    exact .inl ⟨n, Language.append_mem_mul hhyphen hn⟩
  · exact .inr (exists_mem_labelledSpellings (.inr h))

/-- What stands behind the word of a pre-release. The language allows a bare label with a number
behind a hyphen in two ways; the number is the number of the label. -/
theorem exists_mem_number_mul_post
    (h : cs ∈ optional separator * optional digits *
      optional (single '-' * digits + numbered postLabels)) :
    ∃ n post,
      cs ∈ marked n * postSpellings post + omitted n * labelledSpellings postLabels post := by
  obtain ⟨number, hnumber, back, hback, rfl⟩ := h
  obtain ⟨n, hn | ⟨rfl, rfl⟩⟩ := exists_mem_marked_add_omitted hnumber
  · rcases exists_mem_postSpellings hback with ⟨m, hm⟩ | ⟨post, hpost⟩
    · exact ⟨n, some m, .inl (Language.append_mem_mul hn (.inl hm))⟩
    · exact ⟨n, post, .inl (Language.append_mem_mul hn (mem_postSpellings_of_labelled hpost))⟩
  · rcases exists_mem_postSpellings hback with ⟨m, hyphen, hhyphen, ds, hds, rfl⟩ | ⟨post, hpost⟩
    · have hmarked : hyphen ++ ds ∈ marked m :=
        .inl (Language.append_mem_mul (.inr (.inl (.inl hhyphen))) hds)
      refine ⟨m, none, .inl ⟨hyphen ++ ds, hmarked, [], rfl, ?_⟩⟩
      exact List.append_nil _
    · exact ⟨0, post, .inr (Language.append_mem_mul ⟨rfl, rfl⟩ hpost)⟩

/-- A pre-release and a post-release, each there or not. -/
theorem exists_mem_preAndPostSpellings
    (h : cs ∈ optional (numbered preLabels) *
      optional (single '-' * digits + numbered postLabels)) :
    ∃ pre post, cs ∈ preAndPostSpellings pre post := by
  rcases mem_optional_mul_iff.1 h with hpost | hpre
  · rcases exists_mem_postSpellings hpost with ⟨n, hn⟩ | ⟨post, hpost⟩
    · exact ⟨none, some n, .inl hn⟩
    · exact ⟨none, post, mem_postSpellings_of_labelled hpost⟩
  · rw [numbered, mul_assoc, mul_assoc, ← mul_assoc (optional separator) (optional digits)] at hpre
    obtain ⟨_, ⟨sep, hsep, taken, ⟨word, hword, htaken⟩, rfl⟩, back, hback, rfl⟩ := hpre
    obtain ⟨phase, hphase⟩ := exists_mem_phase_words hword
    have hlabel : sep ++ taken ∈ label phase.words :=
      Language.append_mem_mul hsep ⟨word, hphase, htaken⟩
    obtain ⟨n, post, hn⟩ := exists_mem_number_mul_post hback
    exact ⟨some (phase, n), post, Language.append_mem_mul hlabel hn⟩

theorem exists_mem_segmentSpellings (h : cs ∈ alphanums) : ∃ p, cs ∈ segmentSpellings p := by
  obtain ⟨hne, hall⟩ := h
  cases hdigits : cs.all Char.isDigit with
  | true => exact ⟨.number _, mem_numeral_digitsValue hne (List.all_eq_true.1 hdigits)⟩
  | false =>
    refine ⟨.text ⟨Text.lower cs, ?_, ?_, ?_⟩, ?_⟩
    · rw [Text.lower, List.all_map, List.all_eq_true]
      exact fun c hc ↦ (Text.isAlphanum_toLower c).trans (hall c hc)
    · exact Text.lower_lower cs
    · rw [Text.lower, List.all_map, ← hdigits]
      exact List.all_congr rfl fun c ↦ Text.isDigit_toLower c
    · exact ⟨_, List.mem_singleton_self _, String.toList_ofList.symm⟩

theorem exists_mem_localSpellings
    (h : cs ∈ optional (single '+' * (alphanums * (separator * alphanums)∗))) :
    ∃ ps, cs ∈ localSpellings ps := by
  rcases h with rfl | ⟨plus, hplus, back, ⟨run, hrun, more, hmore, rfl⟩, rfl⟩
  · exact ⟨[], rfl⟩
  · obtain ⟨p, hp⟩ := exists_mem_segmentSpellings hrun
    have hfurther : ∀ cs ∈ separator * alphanums, ∃ p, cs ∈ separator * segmentSpellings p := by
      rintro cs ⟨sep, hsep, run, hrun, rfl⟩
      obtain ⟨p, hp⟩ := exists_mem_segmentSpellings hrun
      exact ⟨p, Language.append_mem_mul hsep hp⟩
    obtain ⟨ps, hps⟩ := exists_mem_prod hfurther hmore
    exact ⟨p :: ps, Language.append_mem_mul hplus (Language.append_mem_mul hp hps)⟩

/-- **Every text of the language is the spelling of an identifier.** -/
theorem exists_mem_spellings (h : cs ∈ language) : ∃ x : Identifier, cs ∈ x.spellings := by
  rw [language, mul_assoc _ (optional (numbered preLabels))] at h
  obtain ⟨_, ⟨_, ⟨_, ⟨_, ⟨_, ⟨front, hfront, epoch, hepoch, rfl⟩, release, hrelease, rfl⟩,
    preAndPost, hpreAndPost, rfl⟩, dev, hdev, rfl⟩, locals, hlocals, rfl⟩, back, hback, rfl⟩ := h
  obtain ⟨e, he⟩ := exists_mem_epochSpellings hepoch
  obtain ⟨n, ns, hn⟩ := exists_mem_releaseSpellings hrelease
  obtain ⟨pre, post, hprepost⟩ := exists_mem_preAndPostSpellings hpreAndPost
  obtain ⟨d, hd⟩ := exists_mem_labelledSpellings hdev
  obtain ⟨ps, hps⟩ := exists_mem_localSpellings hlocals
  exact ⟨⟨e, n, ns, pre, post, d, ps⟩,
    Language.append_mem_mul (Language.append_mem_mul (Language.append_mem_mul
      (Language.append_mem_mul (Language.append_mem_mul (Language.append_mem_mul hfront he) hn)
        hprepost) hd) hps) hback⟩

/-- **A text is read as a version exactly when it is in the language of version identifiers.** -/
theorem parse?_isSome_iff (text : String) : (parse? text).isSome ↔ text.toList ∈ language := by
  constructor
  · intro h
    obtain ⟨v, hv⟩ := Option.isSome_iff_exists.1 h
    exact mem_language_of_parse? hv
  · intro h
    obtain ⟨x, hx⟩ := exists_mem_spellings h
    rw [parse?_of_mem_spellings hx]
    rfl

end IndexSnapshot.Version
