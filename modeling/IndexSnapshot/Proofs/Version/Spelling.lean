import IndexSnapshot.Proofs.Version.Labels

/-!
# Spellings are read

Every spelling of an identifier is read as the version of that identifier
(`parse?_of_mem_spellings`).

For each part there is a lemma on how the spellings of the part, with what may follow, begin, and a
lemma on its reader, which leaves what follows. The parts are taken up from the last to the first,
since each needs to know how the later ones begin.
-/

namespace IndexSnapshot.Version

open Grammar Number

variable {cs rest : List Char} {n : ℕ} {letters : List Char} {T : Language Char}

/-! ### The three labels -/

theorem isWordTable_phaseWords : IsWordTable phaseWords := by decide

theorem isWordTable_postWords : IsWordTable postWords := by decide

theorem isWordTable_devWords : IsWordTable devWords := by decide

theorem means_phaseWords (phase : Phase) : Means phaseWords phase.words phase ['p', 'r', 'd'] := by
  cases phase <;> exact ⟨by decide, by decide⟩

/-- A post-release is never taken for a pre-release, though `r` begins labels of both. -/
theorem lacks_phaseWords : Lacks phaseWords postLabels ['d'] := ⟨by decide, by decide⟩

theorem means_postWords : Means postWords postLabels () ['d'] := ⟨by decide, by decide⟩

theorem means_devWords : Means devWords devLabels () [] := ⟨by decide, by decide⟩

theorem beginWith_preLabels (phase : Phase) : BeginWith phase.words ['a', 'b', 'c', 'p', 'r'] := by
  cases phase <;> decide

theorem beginWith_postLabels : BeginWith postLabels ['p', 'r'] := by decide

theorem beginWith_devLabels : BeginWith devLabels ['d'] := by decide

/-! ### Development releases -/

theorem follows_dev (hT : Follows [] T) (dev : Option ℕ) :
    Follows ['d'] (labelledSpellings devLabels dev * T) :=
  follows_labelled beginWith_devLabels hT dev

theorem exists_spanDev (hT : Follows [] T) {dev : Option ℕ}
    (h : cs ∈ labelledSpellings devLabels dev * T) :
    ∃ rest ∈ T, spanDev cs = (dev.map .ofNat, rest) := by
  have hspan : spanDev cs =
      (labelled? devWords cs).elim (none, cs) fun p ↦ (some p.1.2, p.2) := by
    rw [spanDev]
    cases labelled? devWords cs <;> rfl
  rw [hspan]
  exact exists_labelled?_elim isWordTable_devWords means_devWords beginWith_devLabels (by decide)
    hT h

/-! ### Post-releases -/

theorem follows_labelledPost (hT : Follows ['d'] T) (post : Option ℕ) :
    Follows ['p', 'r', 'd'] (labelledSpellings postLabels post * T) :=
  follows_labelled beginWith_postLabels hT post

theorem mem_postSpellings_of_labelled {post : Option ℕ}
    (h : cs ∈ labelledSpellings postLabels post) : cs ∈ postSpellings post := by
  cases post with
  | none => exact h
  | some n => exact .inr h

/-- A post-release is written with a label or as a number behind a hyphen. -/
theorem mem_postSpellings_mul {post : Option ℕ} (h : cs ∈ postSpellings post * T) :
    cs ∈ labelledSpellings postLabels post * T ∨
      ∃ n ds rest, post = some n ∧ ds ∈ numeral n ∧ rest ∈ T ∧ cs = '-' :: (ds ++ rest) := by
  cases post with
  | none => exact .inl h
  | some n =>
    rw [postSpellings, add_mul] at h
    rcases h with ⟨front, ⟨hyphen, rfl, ds, hds, rfl⟩, rest, hrest, rfl⟩ | h
    · exact .inr ⟨n, ds, rest, rfl, hds, hrest, rfl⟩
    · exact .inl h

theorem noDigit_postSpellings (hT : Follows ['d'] T) {post : Option ℕ} :
    ∀ cs ∈ postSpellings post * T, NoDigit cs := by
  intro cs h
  rcases mem_postSpellings_mul h with h | ⟨n, ds, rest, -, -, -, rfl⟩
  · exact (follows_labelledPost hT post).noDigit cs h
  · exact forall_head_cons rfl

theorem spanPost_eq_labelledPost (h : ∀ tail, cs = '-' :: tail → NoDigit tail) :
    spanPost cs = spanPost.labelledPost cs := by
  unfold spanPost
  split
  · rename_i tail
    rw [segment?_of_noDigit (h tail rfl)]
  · rfl

theorem exists_labelledPost (hT : Follows ['d'] T) {post : Option ℕ}
    (h : cs ∈ labelledSpellings postLabels post * T) :
    ∃ rest ∈ T, spanPost.labelledPost cs = (post.map .ofNat, rest) := by
  have hspan : spanPost.labelledPost cs =
      (labelled? postWords cs).elim (none, cs) fun p ↦ (some p.1.2, p.2) := by
    rw [spanPost.labelledPost]
    cases labelled? postWords cs <;> rfl
  rw [hspan]
  exact exists_labelled?_elim isWordTable_postWords means_postWords beginWith_postLabels
    (by decide) hT h

theorem exists_spanPost (hT : Follows ['d'] T) {post : Option ℕ}
    (h : cs ∈ postSpellings post * T) : ∃ rest ∈ T, spanPost cs = (post.map .ofNat, rest) := by
  rcases mem_postSpellings_mul h with h | ⟨n, ds, rest, rfl, hds, hrest, rfl⟩
  · have hopens := (follows_labelledPost hT post).opens cs h
    rw [spanPost_eq_labelledPost fun tail htail ↦
      (htail ▸ hopens : Opens _ ('-' :: tail)).noDigit_tail rfl]
    exact exists_labelledPost hT h
  · refine ⟨rest, hrest, ?_⟩
    rw [spanPost, segment?_numeral hds (hT.noDigit rest hrest)]
    rfl

/-! ### Pre-releases -/

/-- What stands for a post-release is no pre-release. -/
theorem labelled?_phaseWords_eq_none (hT : Follows ['d'] T) {post : Option ℕ}
    (h : cs ∈ postSpellings post * T) : labelled? phaseWords cs = none := by
  rcases mem_postSpellings_mul h with h | ⟨n, ds, rest, rfl, hds, hrest, rfl⟩
  · cases post with
    | none =>
      rw [labelledSpellings, one_mul] at h
      exact labelled?_eq_none_of_opens isWordTable_phaseWords (hT.opens cs h) (by decide)
    | some n =>
      rw [labelledSpellings, mul_assoc, add_mul] at h
      refine labelled?_eq_none (firstWord?_eq_none_of_lacks isWordTable_phaseWords lacks_phaseWords
        beginWith_postLabels ?_ h)
      exact afterWord_of_mem_number hT
  · have hafter : AfterWord [] (ds ++ rest) := by
      obtain ⟨d, tail, rfl, hd⟩ := exists_head_of_mem_numeral hds
      exact forall_head_cons (.inr (.inl hd))
    exact labelled?_eq_none (firstWord?_eq_none isWordTable_phaseWords hafter (by decide))

theorem exists_spanPre (hT : Follows ['d'] T) {pre : Option (Phase × ℕ)} {post : Option ℕ}
    (h : cs ∈ preAndPostSpellings pre post * T) :
    ∃ rest ∈ postSpellings post * T,
      spanPre cs = (pre.map fun p ↦ ⟨p.1, .ofNat p.2⟩, rest) := by
  cases pre with
  | none =>
    have hnone := labelled?_phaseWords_eq_none hT h
    exact ⟨cs, h, by rw [spanPre, hnone]; rfl⟩
  | some p =>
    obtain ⟨phase, n⟩ := p
    rw [preAndPostSpellings, mul_assoc, add_mul, mul_assoc, mul_assoc] at h
    obtain ⟨rest, hrest, hread⟩ := exists_labelled? isWordTable_phaseWords
      (means_phaseWords phase) (beginWith_preLabels phase)
      (noDigit_postSpellings hT) (follows_labelledPost hT post)
      (fun _ ⟨_, hfront, _, hback, heq⟩ ↦
        ⟨_, mem_postSpellings_of_labelled hfront, _, hback, heq⟩) h
    exact ⟨rest, hrest, by rw [spanPre, hread]; rfl⟩

/-! ### Releases -/

/-- What may follow the segments of a release: no digit, and no further segment. -/
structure EndsRelease (cs : List Char) : Prop where
  noDigit : NoDigit cs
  noSegment : ∀ tail, cs = '.' :: tail → NoDigit tail
  noMark : ∀ tail, cs ≠ '!' :: tail

theorem Opens.endsRelease (h : Opens letters cs) : EndsRelease cs where
  noDigit := h.noDigit
  noSegment tail htail := (htail ▸ h : Opens letters ('.' :: tail)).noDigit_tail rfl
  noMark tail htail := by
    subst htail
    rcases h '!' rfl with hblank | hplus | ⟨hletter, -⟩
    · exact absurd hblank (by decide)
    · exact absurd hplus (by decide)
    · exact absurd hletter (by decide)

theorem endsRelease_of_mem (hT : Follows ['d'] T) {pre : Option (Phase × ℕ)} {post : Option ℕ}
    (h : cs ∈ preAndPostSpellings pre post * T) : EndsRelease cs := by
  cases pre with
  | none =>
    rcases mem_postSpellings_mul h with h | ⟨n, ds, rest, -, -, -, rfl⟩
    · exact ((follows_labelledPost hT post).opens cs h).endsRelease
    · refine ⟨?_, fun tail htail ↦ absurd htail (by simp), fun tail ↦ by simp⟩
      exact forall_head_cons rfl
  | some p =>
    rw [preAndPostSpellings, mul_assoc] at h
    exact ((follows_label (beginWith_preLabels p.1) _).opens cs h).endsRelease

theorem mem_minorSpellings_mul_cons {ns : List ℕ} (h : cs ∈ minorSpellings (n :: ns) * T) :
    ∃ ds ∈ numeral n, ∃ rest ∈ minorSpellings ns * T, cs = '.' :: (ds ++ rest) := by
  rw [minorSpellings, List.map_cons, List.prod_cons, mul_assoc, mul_assoc] at h
  obtain ⟨point, rfl, tail, ⟨ds, hds, rest, hrest, rfl⟩, rfl⟩ := h
  exact ⟨ds, hds, rest, hrest, rfl⟩

theorem noDigit_minorSpellings (hT : ∀ cs ∈ T, EndsRelease cs) (ns : List ℕ) :
    ∀ cs ∈ minorSpellings ns * T, NoDigit cs ∧ ∀ tail, cs ≠ '!' :: tail := by
  intro cs h
  cases ns with
  | nil =>
    rw [minorSpellings, List.map_nil, List.prod_nil, one_mul] at h
    exact ⟨(hT cs h).noDigit, (hT cs h).noMark⟩
  | cons n ns =>
    obtain ⟨ds, -, rest, -, rfl⟩ := mem_minorSpellings_mul_cons h
    refine ⟨?_, fun tail ↦ by simp⟩
    exact forall_head_cons rfl

theorem exists_moreSegments (hT : ∀ cs ∈ T, EndsRelease cs) {ns : List ℕ}
    (h : cs ∈ minorSpellings ns * T) :
    ∃ rest ∈ T, moreSegments cs = (ns.map .ofNat, rest) := by
  induction ns generalizing cs with
  | nil =>
    rw [minorSpellings, List.map_nil, List.prod_nil, one_mul] at h
    refine ⟨cs, h, ?_⟩
    rw [moreSegments.eq_def]
    split
    · rename_i tail
      rw [segment?_of_noDigit ((hT _ h).noSegment tail rfl)]
      rfl
    · rfl
  | cons n ns ih =>
    obtain ⟨ds, hds, mid, hmid, rfl⟩ := mem_minorSpellings_mul_cons h
    obtain ⟨rest, hrest, hread⟩ := ih hmid
    have hsegment : segment? (ds ++ mid) = some (.ofNat n, mid) :=
      segment?_numeral hds (noDigit_minorSpellings hT ns mid hmid).1
    refine ⟨rest, hrest, ?_⟩
    rw [moreSegments, hsegment]
    dsimp only
    rw [hread]
    rfl

theorem exists_release? (hT : ∀ cs ∈ T, EndsRelease cs) {ns : List ℕ}
    (h : cs ∈ releaseSpellings n ns * T) :
    ∃ rest ∈ T, release? cs = some ((n :: ns).map .ofNat, rest) := by
  rw [releaseSpellings, mul_assoc] at h
  obtain ⟨ds, hds, mid, hmid, rfl⟩ := h
  obtain ⟨rest, hrest, hread⟩ := exists_moreSegments hT hmid
  have hsegment : segment? (ds ++ mid) = some (.ofNat n, mid) :=
    segment?_numeral hds (noDigit_minorSpellings hT ns mid hmid).1
  refine ⟨rest, hrest, ?_⟩
  simp only [release?, hsegment, hread, Option.bind_eq_bind, Option.bind_some, Option.pure_def,
    List.map_cons]

/-! ### Epochs -/

theorem exists_spanEpoch (hT : ∀ cs ∈ T, EndsRelease cs) {epoch : ℕ} {ns : List ℕ}
    (h : cs ∈ epochSpellings epoch * (releaseSpellings n ns * T)) :
    ∃ rest ∈ releaseSpellings n ns * T, spanEpoch cs = (.ofNat epoch, rest) := by
  rw [epochSpellings, add_mul, mul_assoc] at h
  rcases h with ⟨ds, hds, tail, ⟨mark, rfl, rest, hrest, rfl⟩, rfl⟩ |
    ⟨empty, ⟨rfl, rfl⟩, rest, hrest, rfl⟩
  · refine ⟨rest, hrest, ?_⟩
    obtain ⟨d, tail, rfl⟩ := List.exists_cons_of_ne_nil (ne_nil_of_mem_numeral hds)
    have hspan : spanDigits (d :: tail ++ ('!' :: rest)) = (d :: tail, '!' :: rest) :=
      spanDigits_numeral hds (forall_head_cons rfl)
    show spanEpoch (d :: tail ++ ('!' :: rest)) = _
    rw [spanEpoch, hspan, ← ofDigits_of_mem_numeral hds]
    rfl
  · refine ⟨rest, hrest, ?_⟩
    show spanEpoch rest = _
    rw [releaseSpellings, mul_assoc] at hrest
    obtain ⟨ds, hds, mid, hmid, rfl⟩ := hrest
    obtain ⟨hdigit, hmark⟩ := noDigit_minorSpellings hT ns mid hmid
    have hspan : spanDigits (ds ++ mid) = (ds, mid) := spanDigits_numeral hds hdigit
    unfold spanEpoch
    split
    · rename_i tail heq
      have hmid := (Prod.mk.inj (hspan.symm.trans heq)).2
      exact absurd hmid (hmark tail)
    · rfl

/-! ### Local labels -/

theorem isAlphanum_of_mem_segmentSpellings {p : Segment} (h : cs ∈ segmentSpellings p) :
    cs ≠ [] ∧ ∀ c ∈ cs, c.isAlphanum = true := by
  cases p with
  | number n =>
    refine ⟨ne_nil_of_mem_numeral h, fun c hc ↦ ?_⟩
    rw [Char.isAlphanum, isDigit_of_mem_numeral h hc, Bool.or_true]
  | text t =>
    obtain ⟨word, hword, hlower⟩ := h
    rw [List.mem_singleton.1 hword, String.toList_ofList] at hlower
    refine ⟨?_, fun c hc ↦ ?_⟩
    · rintro rfl
      have hall := t.not_digits
      rw [← hlower] at hall
      cases hall
    · rw [← Text.isAlphanum_toLower]
      exact List.all_eq_true.1 t.isAlphanum _ (hlower ▸ List.mem_map_of_mem hc)

theorem localPart_of_mem_segmentSpellings {p : Segment} (h : cs ∈ segmentSpellings p) :
    localPart cs = p.part .ofNat := by
  cases p with
  | number n =>
    have hall : cs.all Char.isDigit = true :=
      List.all_eq_true.2 fun c hc ↦ isDigit_of_mem_numeral h hc
    rw [localPart, if_pos hall, ofDigits_of_mem_numeral h, Segment.part]
  | text t =>
    obtain ⟨word, hword, hlower⟩ := h
    rw [List.mem_singleton.1 hword, String.toList_ofList] at hlower
    have hall : cs.all Char.isDigit = false := by
      rw [← t.not_digits, ← hlower, Text.lower, List.all_map]
      exact List.all_congr rfl fun c ↦ (Text.isDigit_toLower c).symm
    rw [localPart, if_neg (Bool.eq_false_iff.1 hall), hlower, Segment.part]

/-- The text does not begin with a letter or a digit. -/
def NoAlphanum (cs : List Char) : Prop := ∀ c ∈ cs.head?, c.isAlphanum = false

theorem localRun?_append {p : Segment} (h : cs ∈ segmentSpellings p) (hrest : NoAlphanum rest) :
    localRun? (cs ++ rest) = some (p.part .ofNat, rest) := by
  obtain ⟨hne, hall⟩ := isAlphanum_of_mem_segmentSpellings h
  obtain ⟨htake, hdrop⟩ := takeWhile_dropWhile_append hall hrest
  obtain ⟨c, tail, rfl⟩ := List.exists_cons_of_ne_nil hne
  rw [localRun?, htake, hdrop, ← localPart_of_mem_segmentSpellings h]

theorem isAlphanum_of_isBlank {c : Char} (h : Text.isBlank c = true) : c.isAlphanum = false := by
  refine Bool.eq_false_iff.2 fun halpha ↦ ?_
  have hcode := Text.isAlphanum_iff.1 halpha
  have hblank := code_of_isBlank h
  omega

theorem isAlphanum_of_isSeparator {c : Char} (h : isSeparator c = true) :
    c.isAlphanum = false := by
  rcases isSeparator_iff.1 h with rfl | rfl | rfl <;> rfl

theorem isSeparator_of_isBlank {c : Char} (h : Text.isBlank c = true) : isSeparator c = false := by
  refine Bool.eq_false_iff.2 fun hsep ↦ ?_
  have hcode := code_of_isSeparator hsep
  have hblank := code_of_isBlank h
  omega

theorem isBlank_of_head {c : Char} (h : c :: cs ∈ blanks) : Text.isBlank c = true :=
  h c List.mem_cons_self

theorem mem_furtherSpellings_mul_cons {p : Segment} {ps : List Segment}
    (h : cs ∈ furtherSpellings (p :: ps) * T) :
    ∃ c, isSeparator c = true ∧ ∃ run ∈ segmentSpellings p,
      ∃ rest ∈ furtherSpellings ps * T, cs = c :: (run ++ rest) := by
  rw [furtherSpellings, List.map_cons, List.prod_cons, mul_assoc, mul_assoc] at h
  obtain ⟨sep, hsep, tail, ⟨run, hrun, rest, hrest, rfl⟩, rfl⟩ := h
  obtain ⟨c, hc, rfl⟩ := mem_separator_iff.1 hsep
  exact ⟨c, hc, run, hrun, rest, hrest, rfl⟩

theorem noAlphanum_furtherSpellings {ps : List Segment} (h : cs ∈ furtherSpellings ps * blanks) :
    NoAlphanum cs := by
  cases ps with
  | nil =>
    rw [furtherSpellings, List.map_nil, List.prod_nil, one_mul] at h
    intro c hc
    obtain ⟨tail, rfl⟩ := List.head?_eq_some_iff.1 hc
    exact isAlphanum_of_isBlank (isBlank_of_head h)
  | cons p ps =>
    obtain ⟨c, hc, run, -, rest, -, rfl⟩ := mem_furtherSpellings_mul_cons h
    exact forall_head_cons (isAlphanum_of_isSeparator hc)

theorem exists_moreLocal {ps : List Segment} (h : cs ∈ furtherSpellings ps * blanks) :
    ∃ rest ∈ blanks, moreLocal cs = (ps.map (Segment.part .ofNat), rest) := by
  induction ps generalizing cs with
  | nil =>
    rw [furtherSpellings, List.map_nil, List.prod_nil, one_mul] at h
    refine ⟨cs, h, ?_⟩
    cases cs with
    | nil => rw [moreLocal]; rfl
    | cons c cs =>
      rw [moreLocal, isSeparator_of_isBlank (isBlank_of_head h)]
      rfl
  | cons p ps ih =>
    obtain ⟨c, hc, run, hrun, mid, hmid, rfl⟩ := mem_furtherSpellings_mul_cons h
    obtain ⟨rest, hrest, hread⟩ := ih hmid
    refine ⟨rest, hrest, ?_⟩
    rw [moreLocal, if_pos hc, localRun?_append hrun (noAlphanum_furtherSpellings hmid)]
    dsimp only
    rw [hread]
    rfl

theorem spanLocal_of_blanks (h : cs ∈ blanks) : spanLocal cs = (none, cs) := by
  unfold spanLocal
  split
  · exact absurd (isBlank_of_head h) (by decide)
  · rfl

/-- A local label is read off, and none where there are no segments. -/
theorem exists_spanLocal {ps : List Segment} (h : cs ∈ localSpellings ps * blanks) :
    ∃ rest ∈ blanks, spanLocal cs =
      (if ps = [] then none else some (ps.map (Segment.part .ofNat)), rest) := by
  cases ps with
  | nil =>
    rw [localSpellings, one_mul] at h
    exact ⟨cs, h, spanLocal_of_blanks h⟩
  | cons p ps =>
    rw [localSpellings, mul_assoc, mul_assoc] at h
    obtain ⟨plus, rfl, tail, ⟨run, hrun, mid, hmid, rfl⟩, rfl⟩ := h
    obtain ⟨rest, hrest, hread⟩ := exists_moreLocal hmid
    refine ⟨rest, hrest, ?_⟩
    show spanLocal ('+' :: (run ++ mid)) = _
    rw [spanLocal, localRun?_append hrun (noAlphanum_furtherSpellings hmid)]
    dsimp only
    rw [hread, if_neg (List.cons_ne_nil p ps)]
    rfl

theorem follows_local (ps : List Segment) : Follows [] (localSpellings ps * blanks) := by
  have hhead : ∀ cs ∈ localSpellings ps * blanks, ∀ c ∈ cs.head?,
      Text.isBlank c = true ∨ c = '+' := by
    intro cs h c hc
    obtain ⟨tail, rfl⟩ := List.head?_eq_some_iff.1 hc
    cases ps with
    | nil =>
      rw [localSpellings, one_mul] at h
      exact .inl (isBlank_of_head h)
    | cons p ps =>
      rw [localSpellings, mul_assoc] at h
      obtain ⟨plus, rfl, tail', -, heq⟩ := h
      exact .inr (List.cons.inj heq).1.symm
  have hskip : ∀ cs ∈ localSpellings ps * blanks, skipSeparator cs = cs := by
    intro cs h
    cases cs with
    | nil => rfl
    | cons c cs =>
      rcases hhead _ h c rfl with hblank | rfl
      · exact skipSeparator_of_head (isSeparator_of_isBlank hblank) cs
      · exact skipSeparator_of_head rfl cs
  refine ⟨fun cs h c hc ↦ ?_, fun cs h ↦ (hskip cs h).symm ▸ h⟩
  rw [hskip cs h] at hc
  exact (hhead cs h c hc).imp_right .inl

/-! ### Whole identifiers -/

theorem trimStart_append {bs : List Char} (hbs : bs ∈ blanks)
    (hrest : ∀ c ∈ rest.head?, Text.isBlank c = false) : Text.trimStart (bs ++ rest) = rest :=
  (takeWhile_dropWhile_append hbs hrest).2

theorem isBlank_of_isAlphanum {c : Char} (h : c.isAlphanum = true) : Text.isBlank c = false :=
  Bool.eq_false_iff.2 fun hblank ↦ Bool.eq_false_iff.1 (isAlphanum_of_isBlank hblank) h

/-- Blanks and a mark in front of the numbers are passed over. -/
theorem skipMark_trimStart_mem (hT : ∀ cs ∈ T, ∃ d tail, cs = d :: tail ∧ d.isDigit = true)
    (h : cs ∈ blanks * (optional (anyWord ["v"]) * T)) : skipMark (Text.trimStart cs) ∈ T := by
  obtain ⟨bs, hbs, front, ⟨mark, hmark, rest, hrest, rfl⟩, rfl⟩ := h
  obtain ⟨d, tail, rfl, hd⟩ := hT rest hrest
  have hd' : d.isAlphanum = true := by rw [Char.isAlphanum, hd, Bool.or_true]
  rcases hmark with rfl | ⟨word, hword, hlower⟩
  · have htrim : Text.trimStart (bs ++ d :: tail) = d :: tail := by
      exact trimStart_append hbs (forall_head_cons (isBlank_of_isAlphanum hd'))
    have hmark : d.toLower ≠ 'v' := by
      rintro heq
      rw [← Text.isDigit_toLower, heq] at hd
      cases hd
    show skipMark (Text.trimStart (bs ++ d :: tail)) ∈ T
    rw [htrim, skipMark, if_neg hmark]
    exact hrest
  · rw [List.mem_singleton.1 hword] at hlower
    obtain ⟨m, more, rfl, hm⟩ := exists_head_of_lower_eq (c := 'v') hlower rfl
    obtain rfl : more = [] := List.map_eq_nil_iff.1 (List.cons.inj hlower).2
    have hm' : m.isAlphanum = true := by
      rw [← Text.isAlphanum_toLower, hm]
      rfl
    have htrim : Text.trimStart (bs ++ m :: d :: tail) = m :: d :: tail :=
      trimStart_append hbs (forall_head_cons (isBlank_of_isAlphanum hm'))
    show skipMark (Text.trimStart (bs ++ m :: d :: tail)) ∈ T
    rw [htrim, skipMark, if_pos hm]
    exact hrest

/-- Numbers begin with a digit. -/
theorem exists_digit_of_mem {epoch : ℕ} {ns : List ℕ}
    (h : cs ∈ epochSpellings epoch * (releaseSpellings n ns * T)) :
    ∃ d tail, cs = d :: tail ∧ d.isDigit = true := by
  rw [epochSpellings, add_mul, mul_assoc] at h
  rcases h with ⟨ds, hds, tail, -, rfl⟩ | ⟨empty, ⟨rfl, rfl⟩, rest, hrest, rfl⟩
  · obtain ⟨d, more, rfl, hd⟩ := exists_head_of_mem_numeral hds
    exact ⟨d, more ++ tail, rfl, hd⟩
  · rw [releaseSpellings, mul_assoc] at hrest
    obtain ⟨ds, hds, tail, -, rfl⟩ := hrest
    obtain ⟨d, more, rfl, hd⟩ := exists_head_of_mem_numeral hds
    exact ⟨d, more ++ tail, rfl, hd⟩

/-- **Every spelling of an identifier is read as its version**, each number as the nearest one of
the range. -/
theorem parse?_of_mem_spellings {x : Identifier} {text : String}
    (h : text.toList ∈ x.spellings) : parse? text = some (x.rounded text) := by
  simp only [Identifier.spellings, mul_assoc] at h
  have hlocal := follows_local x.locals
  have hdev := follows_dev hlocal x.dev
  have hends : ∀ cs ∈ preAndPostSpellings x.pre x.post *
      (labelledSpellings devLabels x.dev * (localSpellings x.locals * blanks)), EndsRelease cs :=
    fun _ hcs ↦ endsRelease_of_mem hdev hcs
  have hnumbers := skipMark_trimStart_mem (fun _ hcs ↦ exists_digit_of_mem hcs) h
  obtain ⟨cs₁, h₁, hepoch⟩ := exists_spanEpoch hends hnumbers
  obtain ⟨cs₂, h₂, hrelease⟩ := exists_release? hends h₁
  obtain ⟨cs₃, h₃, hpre⟩ := exists_spanPre hdev h₂
  obtain ⟨cs₄, h₄, hpost⟩ := exists_spanPost hdev h₃
  obtain ⟨cs₅, h₅, hdevelopment⟩ := exists_spanDev hlocal h₄
  obtain ⟨cs₆, h₆, hlocals⟩ := exists_spanLocal h₅
  have hend : cs₆.all Text.isBlank = true := List.all_eq_true.2 h₆
  simp only [parse?, hepoch, hrelease, hpre, hpost, hdevelopment, hlocals, hend,
    Option.bind_eq_bind, Option.bind_some, Option.pure_def, if_true]
  rfl

end IndexSnapshot.Version
