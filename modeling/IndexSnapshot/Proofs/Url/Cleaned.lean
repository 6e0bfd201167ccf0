import IndexSnapshot.Proofs.Text.Lines
import IndexSnapshot.Proofs.Url.Reread

/-!
# Texts without query and fragment

What a locator is read from stands before its query and its fragment (`front_append`), and its
written form without them is settled by what is read there (`cleaned?_eq`). Since that is read back,
a text whose query and fragment have been left out stays as it is when they are left out again
(`cleaned?_of_cleaned?`), and a reference leads to the same file from a page whatever its query and
its fragment are (`bind_cleaned?_parse?`).
-/

namespace IndexSnapshot.Url

variable {base : Option Url} {cs tail : List Char} {hier : Hierarchy} {url : Url}

/-! ### Fronts of texts -/

/-- A query, a fragment, or nothing. -/
def IsTail (tail : List Char) : Prop := ∀ c ∈ tail.head?, c = '?' ∨ c = '#'

theorem rdropWhile_append_cons {p : Char → Bool} {c : Char} (hc : p c = false)
    (front back : List Char) :
    (front ++ c :: back).rdropWhile p = front ++ c :: back.rdropWhile p := by
  have hneg : (c :: front.reverse).dropWhile p = c :: front.reverse :=
    List.dropWhile_cons_of_neg (by simp [hc])
  rw [List.rdropWhile, List.reverse_append, List.reverse_cons, List.append_assoc,
    List.singleton_append, List.dropWhile_append, List.rdropWhile]
  split
  · rename_i hnone
    rw [List.isEmpty_iff] at hnone
    rw [hneg, hnone]
    simp
  · simp

/-- Blanks and controls, which are taken off the edges of a text. -/
def isEdge (c : Char) : Bool := c ≤ ' '

/-- All but tabs and line breaks, which are taken out of a text. -/
def isKept (c : Char) : Bool := c ≠ '\t' && c ≠ '\n' && c ≠ '\r'

theorem clean_eq (cs : List Char) :
    clean cs = ((cs.dropWhile isEdge).rdropWhile isEdge).filter isKept := rfl

theorem isEdge_eq_false_iff {c : Char} : isEdge c = false ↔ ' ' < c := by
  rw [isEdge, decide_eq_false_iff_not, Char.not_le]

theorem rdropWhile_of_isTight (h : IsTight cs) : cs.rdropWhile isEdge = cs := by
  refine List.rdropWhile_eq_self_iff.2 fun hne ↦ ?_
  rw [isEdge_eq_false_iff.2 (h _ (List.getLast?_eq_some_getLast hne))]
  exact Bool.false_ne_true

theorem isKept_of_lt {c : Char} (h : ' ' < c) : isKept c = true := by
  rw [space_lt_iff] at h
  simp only [isKept, ne_eq, decide_not, Bool.and_eq_true, Bool.not_eq_true',
    decide_eq_false_iff_not, ← Char.toNat_inj, Char.reduceToNat]
  omega

/-- No blank is left at the end of a text. -/
theorem isTight_clean (cs : List Char) : IsTight (clean cs) := by
  rw [clean_eq]
  rcases List.eq_nil_or_concat ((cs.dropWhile isEdge).rdropWhile isEdge) with
    hnil | ⟨init, last, hlast⟩
  · rw [hnil]
    exact isTight_nil
  · rw [List.concat_eq_append] at hlast
    have hedge := List.rdropWhile_last_not isEdge (cs.dropWhile isEdge) (by simp [hlast])
    simp only [hlast, List.getLast_append_singleton, Bool.not_eq_true] at hedge
    have hblank := isEdge_eq_false_iff.1 hedge
    intro c hc
    rw [hlast, List.filter_append, List.filter_cons_of_pos (isKept_of_lt hblank), List.filter_nil,
      List.getLast?_concat] at hc
    exact Option.some.inj hc ▸ hblank

/-- **A text and its tail are cleaned apart**, when the text has no blank at its end. -/
theorem exists_clean_append (h : IsTight cs) (htail : IsTail tail) :
    ∃ tail', IsTail tail' ∧ clean (cs ++ tail) = clean cs ++ tail' := by
  rcases tail with _ | ⟨mark, tail⟩
  · exact ⟨[], htail, by rw [List.append_nil, List.append_nil]⟩
  · obtain ⟨hedge, hkept⟩ : isEdge mark = false ∧ isKept mark = true := by
      rcases htail mark rfl with rfl | rfl <;> decide
    have hfront : (cs ++ mark :: tail).dropWhile isEdge = cs.dropWhile isEdge ++ mark :: tail := by
      rw [List.dropWhile_append]
      split
      · rename_i hnone
        rw [List.isEmpty_iff] at hnone
        rw [hnone, List.dropWhile_cons_of_neg (by simp [hedge]), List.nil_append]
      · rfl
    have hback : (cs.dropWhile isEdge).rdropWhile isEdge = cs.dropWhile isEdge :=
      rdropWhile_of_isTight (isTight_of_isSuffix h (List.dropWhile_suffix _))
    refine ⟨mark :: (tail.rdropWhile isEdge).filter isKept, htail, ?_⟩
    rw [clean_eq, clean_eq, hfront, rdropWhile_append_cons hedge, hback, List.filter_append,
      List.filter_cons_of_pos hkept]

theorem front_ofList (cs : List Char) : front (String.ofList cs) =
    ((clean cs).takeWhile fun c ↦ !(c = '#')).takeWhile fun c ↦ !(c = '?') := by
  rw [front, String.toList_ofList, Text.cutAt_fst, Text.cutAt_fst]

theorem of_mem_front {text : String} {c : Char} (hc : c ∈ front text) : c ≠ '#' ∧ c ≠ '?' := by
  rw [← String.ofList_toList (s := text), front_ofList] at hc
  have hquery := List.mem_takeWhile_imp hc
  have hfragment := List.mem_takeWhile_imp ((List.takeWhile_prefix _).subset hc)
  simp only [Bool.not_eq_true', decide_eq_false_iff_not] at hquery hfragment
  exact ⟨hfragment, hquery⟩

/-- **The front of a text is what stands before its tail**, cleaned. -/
theorem front_append (hmarks : ∀ c ∈ cs, c ≠ '#' ∧ c ≠ '?') (h : IsTight cs) (htail : IsTail tail) :
    front (String.ofList (cs ++ tail)) = clean cs := by
  obtain ⟨tail', htail', hclean⟩ := exists_clean_append h htail
  have hmarks' : ∀ c ∈ clean cs, (!decide (c = '#')) = true ∧ (!decide (c = '?')) = true := by
    intro c hc
    have := hmarks c ((clean_sublist cs).subset hc)
    simp [this]
  rw [front_ofList, hclean, List.takeWhile_append_of_pos fun c hc ↦ (hmarks' c hc).1,
    List.takeWhile_append_of_pos fun c hc ↦ (hmarks' c hc).2]
  rcases tail' with _ | ⟨mark, tail'⟩
  · exact List.append_nil _
  · rcases htail' mark rfl with rfl | rfl
    · rw [List.takeWhile_cons_of_pos (by decide), List.takeWhile_cons_of_neg (by decide),
        List.append_nil]
    · rw [List.takeWhile_cons_of_neg (by decide), List.takeWhile_nil, List.append_nil]

/-! ### What is read there -/

/-- The part of a locator before its query. -/
def hierarchy (url : Url) : Hierarchy := ⟨url.scheme, url.authority, url.path⟩

/-- The hierarchy of a locator is read from the front of a text. -/
theorem map_hierarchy_parse? (base : Option Url) (text : String) : ∃ hasFragment,
    (parse? base text).map hierarchy =
      (hierarchy? base (front text) hasFragment).map Prod.fst := by
  refine ⟨(Text.cutAt (· = '#') (clean text.toList)).2.isSome, ?_⟩
  show ((hierarchy? base (front text) (Text.cutAt (· = '#') (clean text.toList)).2.isSome).bind
    _).map hierarchy = _
  generalize hierarchy? base (front text) _ = read
  rcases read with _ | ⟨hier, keepsQuery⟩ <;> rfl

/-- Whether there is a fragment matters only against a text without structure. -/
theorem hierarchy?_congr (hbase : ∀ b ∈ base, isFlat b.path = false) (cs : List Char)
    (hasFragment : Bool) : hierarchy? base cs hasFragment = hierarchy? base cs false := by
  unfold hierarchy?
  split
  · rfl
  · rcases base with _ | b
    · rfl
    · simp [hbase b rfl]

theorem map_hierarchy_parse?_eq (hbase : ∀ b ∈ base, isFlat b.path = false) (text : String) :
    (parse? base text).map hierarchy = (hierarchy? base (front text) false).map Prod.fst := by
  obtain ⟨hasFragment, hmap⟩ := map_hierarchy_parse? base text
  rw [hmap, hierarchy?_congr hbase]

theorem isRead_of_parse? (hbase : ∀ b ∈ base, IsPage b) {text : String}
    (h : parse? base text = some url) : IsRead (front text) url.hierarchy := by
  obtain ⟨hasFragment, hmap⟩ := map_hierarchy_parse? base text
  rw [h] at hmap
  obtain ⟨⟨hier, keepsQuery⟩, hhier, hsame⟩ := Option.map_eq_some_iff.1 hmap.symm
  rw [← hsame]
  exact isRead_of_hierarchy? hbase (fun _ ↦ of_mem_front) hhier

theorem isTight_append_cons {mark : Char} (hmark : ' ' < mark) (h : IsTight tail) (cs : List Char) :
    IsTight (cs ++ mark :: tail) := by
  intro c hc
  rw [List.getLast?_append_cons] at hc
  rcases tail with _ | ⟨d, tail⟩
  · obtain rfl := Option.some.inj hc
    exact hmark
  · rw [List.getLast?_cons_cons] at hc
    exact h c hc

/-- What is read is written without controls, and without marks of a query or a fragment. -/
theorem IsRead.of_mem_chars (h : IsRead cs hier) {c : Char} (hc : c ∈ hier.chars) :
    c = ' ' ∨ isPlain c = true := by
  obtain ⟨rest, hchars, hscheme, hrest, -⟩ := h.exists_chars_eq
  rw [hchars, List.mem_append, List.mem_cons] at hc
  rcases hc with hc | rfl | hc
  · exact .inr (isPlain_of_isSchemeChar (hscheme.isScheme.forall_mem c hc))
  · exact .inr rfl
  · exact hrest c hc

/-- What is written and has no blank at its end is left as it is. -/
theorem IsRead.clean_chars (h : IsRead cs hier) (htight : IsTight cs) :
    clean hier.chars = hier.chars ∧ (∀ c ∈ hier.chars, c ≠ '#' ∧ c ≠ '?') ∧ IsTight hier.chars := by
  obtain ⟨rest, hchars, hscheme, -, htight'⟩ := h.exists_chars_eq
  obtain ⟨first, tail, hfirst, halpha⟩ := hscheme.isScheme.head
  have htightChars : IsTight hier.chars :=
    hchars ▸ isTight_append_cons (by decide) (htight' htight) hier.scheme
  have hhead : hier.chars.dropWhile isEdge = hier.chars := by
    have hedge : isEdge first = false := isEdge_eq_false_iff.2
      (of_isPlain (isPlain_of_isOwn (isOwn_of_isAlphanum (by simp [Char.isAlphanum, halpha])))).1
    rw [hchars, hfirst, List.cons_append, List.dropWhile_cons_of_neg (by simp [hedge])]
  refine ⟨?_, fun c hc ↦ ?_, htightChars⟩
  · rw [clean_eq, hhead, rdropWhile_of_isTight htightChars, List.filter_eq_self]
    intro c hc
    rcases h.of_mem_chars hc with rfl | hc
    · rfl
    · exact isKept_of_lt (of_isPlain hc).1
  · rcases h.of_mem_chars hc with rfl | hc
    · decide
    · exact (of_isPlain hc).2

theorem IsRead.front_append (h : IsRead cs hier) (htight : IsTight cs) (htail : IsTail tail) :
    front (String.ofList (hier.chars ++ tail)) = hier.chars := by
  obtain ⟨hclean, hmarks, htightChars⟩ := h.clean_chars htight
  rw [Url.front_append hmarks htightChars htail, hclean]

theorem IsRead.front_chars (h : IsRead cs hier) (htight : IsTight cs) :
    front (String.ofList hier.chars) = hier.chars := by
  have hnil : IsTail [] := fun _ hc ↦ absurd hc (Option.not_mem_none _)
  have hfront := h.front_append htight hnil
  rwa [List.append_nil] at hfront

/-! ### Written forms without query and fragment -/

/-- The written form is that of the hierarchy with a tail behind it. -/
theorem exists_chars_eq (url : Url) :
    ∃ tail, IsTail tail ∧ url.chars = url.hierarchy.chars ++ tail := by
  obtain ⟨scheme, username, password, host, port, path, query, fragment⟩ := url
  refine ⟨(query.elim [] fun q ↦ '?' :: q) ++ (fragment.elim [] fun f ↦ '#' :: f), ?_, ?_⟩
  · rcases query with _ | q
    · rcases fragment with _ | f
      · exact fun _ hc ↦ absurd hc (Option.not_mem_none _)
      · exact fun c hc ↦ .inr (Option.some.inj hc).symm
    · exact fun c hc ↦ .inl (Option.some.inj hc).symm
  · simp only [Hierarchy.chars, Hierarchy.locator, hierarchy, authority, chars, Option.elim_none,
      List.append_nil, List.append_assoc]
    rfl

/-- **Query and fragment have no part in the form without them.** -/
theorem cleaned?_eq (text : String) : cleaned? text =
    (hierarchy? none (front text) false).map fun read ↦ String.ofList read.1.trimmed.chars := by
  have hmap : (parse? none text).map hierarchy =
      (hierarchy? none (front text) false).map Prod.fst := map_hierarchy_parse?_eq (by simp) text
  calc cleaned? text
      = ((parse? none text).map hierarchy).map fun hier ↦ String.ofList hier.trimmed.chars := by
        rw [Option.map_map]
        rfl
    _ = _ := by
        rw [hmap, Option.map_map]
        rfl

/-- **What is left without query and fragment has neither, and is its own form**: when the form is
read and written once more it stays as it is, if the host is stable. -/
theorem cleaned?_of_cleaned? {text out : String} (h : cleaned? text = some out) :
    '?' ∉ out.toList ∧ '#' ∉ out.toList ∧
      ((∀ url ∈ parse? none text, ∀ host ∈ url.host, host.IsStable) → cleaned? out = some out) := by
  obtain ⟨url, hurl, rfl⟩ := Option.map_eq_some_iff.1 h
  have hread : IsRead (front text) url.hierarchy := isRead_of_parse? (by simp) hurl
  have hout : url.withoutSuffix.href = String.ofList url.hierarchy.trimmed.chars := rfl
  obtain ⟨-, hmarks, -⟩ := hread.trimmed.clean_chars isTight_nil
  rw [hout, String.toList_ofList]
  refine ⟨fun hc ↦ (hmarks _ hc).2 rfl, fun hc ↦ (hmarks _ hc).1 rfl, fun hstable ↦ ?_⟩
  obtain ⟨hier, hhier, hsame⟩ := hread.trimmed.hierarchy?_chars (hstable url hurl) false
  rw [cleaned?_eq, hread.trimmed.front_chars isTight_nil, hhier, Option.map_some, hsame,
    Hierarchy.trimmed_trimmed]

/-- **There is no control in what is left of a locator**, and so no line break. -/
theorem isClear_of_cleaned? {text out : String} (h : cleaned? text = some out) :
    Text.IsClear out.toList := by
  obtain ⟨url, hurl, rfl⟩ := Option.map_eq_some_iff.1 h
  have hread : IsRead (front text) url.hierarchy := isRead_of_parse? (by simp) hurl
  have hout : url.withoutSuffix.href = String.ofList url.hierarchy.trimmed.chars := rfl
  rw [hout, String.toList_ofList]
  intro c hc
  rcases hread.trimmed.of_mem_chars hc with rfl | hplain
  · decide
  · exact (isPlain_iff.1 hplain).1.le

/-- A text with all that a locator can have, none of it in the form in which it is written. -/
def sampleText : String := " HTTP://us er:pw@Mirror.Example:80/a/./../b c\\d/?q=1#top\n"

/-- The text in its written form, without query and fragment. -/
def sampleForm : String := "http://us%20er:pw@mirror.example/b%20c/d/"

theorem cleaned?_of_cleaned?_sampleText :
    cleaned? sampleText = some sampleForm ∧
      (∀ url ∈ parse? none sampleText, ∀ host ∈ url.host, host.IsStable) ∧
      '?' ∉ sampleForm.toList ∧ '#' ∉ sampleForm.toList ∧
      cleaned? sampleForm = some sampleForm := by
  have hcleaned : cleaned? sampleText = some sampleForm := by decide +kernel
  have hhost : (parse? none sampleText).bind Url.host =
      some (.domain "mirror.example".toList) := by decide +kernel
  have hstable : ∀ url ∈ parse? none sampleText, ∀ host ∈ url.host, host.IsStable := by
    rintro url hurl host hsame name rfl
    rw [Option.mem_def.1 hurl, Option.bind_some, Option.mem_def.1 hsame] at hhost
    obtain rfl : name = "mirror.example".toList := by simpa using hhost
    decide +kernel
  obtain ⟨hquery, hfragment, hagain⟩ := cleaned?_of_cleaned? hcleaned
  exact ⟨hcleaned, hstable, hquery, hfragment, hagain hstable⟩

/-! ### References from a page -/

/-- What is left without query and fragment is settled by the hierarchy. -/
theorem cleaned?_href (h : IsRead cs url.hierarchy) (htight : IsTight cs) :
    cleaned? url.href = cleaned? (String.ofList url.hierarchy.chars) := by
  obtain ⟨tail, htail, hchars⟩ := url.exists_chars_eq
  rw [cleaned?_eq, cleaned?_eq, href, hchars, h.front_append htight htail, h.front_chars htight]

/-- **A reference leads to the same place without query and fragment** whatever stands behind it. -/
theorem bind_cleaned?_parse? {b : Url} (hb : IsPage b) (hmarks : ∀ c ∈ cs, c ≠ '#' ∧ c ≠ '?')
    (htight : IsTight cs) (htail : IsTail tail) :
    (parse? (some b) (String.ofList (cs ++ tail))).bind (fun url ↦ cleaned? url.href) =
      (hierarchy? (some b) (clean cs) false).bind fun read ↦
        cleaned? (String.ofList read.1.chars) := by
  have hpage : ∀ b' ∈ some b, IsPage b' := by rintro b' ⟨⟩; exact hb
  have hflat : ∀ b' ∈ some b, isFlat b'.path = false := by
    rintro b' ⟨⟩
    obtain ⟨names, hnames, -⟩ := hb.exists_names
    rw [hnames]
    rfl
  have hfront := front_append hmarks htight htail
  have hmap := map_hierarchy_parse?_eq hflat (String.ofList (cs ++ tail))
  rw [hfront] at hmap
  calc (parse? (some b) (String.ofList (cs ++ tail))).bind (fun url ↦ cleaned? url.href)
      = ((parse? (some b) (String.ofList (cs ++ tail))).map hierarchy).bind fun hier ↦
          cleaned? (String.ofList hier.chars) := by
        rw [Option.bind_map]
        refine Option.bind_congr fun url hurl ↦ ?_
        have hread := isRead_of_parse? hpage hurl
        rw [hfront] at hread
        rw [Function.comp_apply, cleaned?_href hread (isTight_clean cs)]
    _ = _ := by rw [hmap, Option.bind_map, Function.comp_def]

end IndexSnapshot.Url
