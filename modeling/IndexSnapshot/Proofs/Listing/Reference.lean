import IndexSnapshot.Proofs.Listing.Cut

/-!
# Which attribute is the reference

The reader of anchors looks for the reference from piece to piece of a start tag, and a single
character of the name of an attribute is a piece. The reference that it finds is therefore the value
of the first attribute in double quotation marks whose name *ends* in the letters of `href`
(`inTag?_fields`): no value is ever taken for a part of the tag, whatever is in it, but a name such
as `data-href` is taken for the end of itself. The attribute with the name `href` is the reference
unless one of those stands before it (`Link.all_eq_iff`).
-/

namespace IndexSnapshot.Anchor

/-- Characters of the names of attributes, letters, digits and hyphens among them: all but blanks
and the marks that give a tag its form. -/
def isNameChar (c : Char) : Bool :=
  !Text.isBlank c && c ≠ '=' && c ≠ '>' && c ≠ '"' && c ≠ '\''

/-- An attribute of a start tag, behind one space. -/
structure Field where
  name : List Char
  quote : Char
  value : List Char
  isNameChar_of_mem : ∀ c ∈ name, isNameChar c = true
  isQuote : quote = '"' ∨ quote = '\''
  notMem_value : quote ∉ value

variable {name value more rest text cs : List Char} {c quote : Char}

theorem isNameChar_iff : isNameChar c = true ↔
    Text.isBlank c = false ∧ c ≠ '=' ∧ c ≠ '>' ∧ c ≠ '"' ∧ c ≠ '\'' := by
  simp [isNameChar, and_assoc]

namespace Field

/-- The attribute from its name on. -/
def body (f : Field) : List Char := f.name ++ '=' :: f.quote :: (f.value ++ [f.quote])

/-- The attribute with the space before it. -/
def chars (f : Field) : List Char := ' ' :: f.body

/-- The attribute is in double quotation marks, and its name ends in the letters of `href`. -/
def refers (f : Field) : Bool :=
  f.quote = '"' && "href".toList.isSuffixOf (Text.lower f.name)

theorem refers_iff (f : Field) :
    f.refers = true ↔ f.quote = '"' ∧ "href".toList <:+ Text.lower f.name := by
  rw [refers, Bool.and_eq_true, decide_eq_true_iff, List.isSuffixOf_iff_suffix]

theorem isQuote_double : '"' = '"' ∨ '"' = '\'' := .inl rfl

theorem isPieces_chars (f : Field) : IsPieces f.chars := by
  have hname : IsPieces f.name := isPieces_of_forall fun c hc ↦
    (isNameChar_iff.1 (f.isNameChar_of_mem c hc)).2.2
  exact .char (by decide) (hname.append (.char (by decide) (.quoted f.isQuote f.notMem_value .nil)))

end Field

/-! ### Where a reference begins -/

theorem hrefHere?_cons_of_ne (h : c.toLower ≠ 'h') (cs : List Char) :
    hrefHere? (c :: cs) = none := by
  have hstrip : Text.stripWord? "href=\"".toList (c :: cs) = none := if_neg h
  rw [hrefHere?, hstrip]
  rfl

/-- **A reference begins at a name** when the name is `href` in either letter case and its value is
in double quotation marks. -/
theorem exists_of_hrefHere? {found : List Char × List Char} (hname : '=' ∉ name)
    (h : hrefHere? (name ++ '=' :: quote :: more) = some found) :
    quote = '"' ∧ Text.lower name = "href".toList := by
  obtain ⟨opened, hopened, -⟩ := Option.bind_eq_some_iff.1 h
  obtain ⟨taken, htaken, hlower⟩ := Text.stripWord?_eq_some.1 hopened
  obtain ⟨word, marks, rfl, hword, hmarks⟩ : ∃ word marks, taken = word ++ marks ∧
      Text.lower word = "href".toList ∧ Text.lower marks = ['=', '"'] :=
    List.map_eq_append_iff.1 (hlower.trans rfl)
  obtain ⟨equals, marks, rfl, hequals, hmarks⟩ := List.map_eq_cons_iff.1 hmarks
  obtain ⟨mark, rfl, hmark⟩ := List.map_eq_singleton_iff.1 hmarks
  obtain rfl := (Text.toLower_eq_iff (by decide)).1 hequals
  obtain rfl := (Text.toLower_eq_iff (by decide)).1 hmark
  have hnot : '=' ∉ word := fun hmem ↦ by
    have hmem : '='.toLower ∈ Text.lower word := List.mem_map_of_mem hmem
    rw [hword] at hmem
    exact absurd hmem (by decide)
  -- both sides up to their first sign of equality
  have hbefore : ∀ {front : List Char} (back : List Char), '=' ∉ front →
      (front ++ '=' :: back).takeWhile (fun c ↦ decide (c ≠ '=')) = front := by
    intro front back hfront
    have hkept : ∀ c ∈ front, decide (c ≠ '=') = true := fun c hc ↦
      decide_eq_true fun heq ↦ hfront (heq ▸ hc)
    rw [List.takeWhile_append_of_pos hkept, List.takeWhile_cons_of_neg (by decide), List.append_nil]
  rw [List.append_assoc] at htaken
  have hsame : name = word := by
    rw [← hbefore (quote :: more) hname, htaken]
    exact hbefore ('"' :: opened) hnot
  subst hsame
  have hrest := List.append_cancel_left htaken
  exact ⟨(List.cons_eq_cons.1 (List.cons_eq_cons.1 hrest).2).1, hword⟩

theorem hrefHere?_of_lower_eq (hname : Text.lower name = "href".toList) (hvalue : '"' ∉ value)
    (more : List Char) :
    hrefHere? (name ++ '=' :: '"' :: (value ++ '"' :: more)) = some (value, more) := by
  have hstrip : Text.stripWord? "href=\"".toList (name ++ '=' :: '"' :: (value ++ '"' :: more)) =
      some (value ++ '"' :: more) := by
    refine Text.stripWord?_eq_some.2 ⟨name ++ ['=', '"'], by simp, ?_⟩
    rw [Text.lower, List.map_append, show name.map Char.toLower = "href".toList from hname]
    rfl
  have hbefore : ∀ c ∈ value, decide (c ≠ '"') = true := fun c hc ↦
    decide_eq_true fun heq ↦ hvalue (heq ▸ hc)
  rw [hrefHere?, hstrip, Option.bind_eq_bind, Option.bind_some, afterQuote?_append hvalue,
    Option.bind_some, List.takeWhile_append_of_pos hbefore, List.takeWhile_cons_of_neg (by simp),
    List.append_nil]
  rfl

/-! ### From piece to piece -/

theorem inTag?_of_hereToEnd? {found : (List Char × List Char) × List Char}
    (h : hereToEnd? cs = some found) : inTag? cs = some found := by
  rw [inTag?, h]

theorem inTag?_of_hrefHere?_eq_none (h : hrefHere? cs = none)
    (hpiece : afterPiece? cs = some rest) :
    inTag? cs = inTag? rest := by
  have hhere : hereToEnd? cs = none := by
    rw [hereToEnd?, h]
    rfl
  rw [inTag?, hhere]
  dsimp only
  split
  · rename_i heq
    rw [Option.some.inj (hpiece.symm.trans heq)]
  · rename_i heq
    exact absurd (hpiece.symm.trans heq) (Option.some_ne_none rest)

theorem inTag?_space (cs : List Char) : inTag? (' ' :: cs) = inTag? cs :=
  inTag?_of_hrefHere?_eq_none (hrefHere?_cons_of_ne (by decide) cs) rfl

/-- A value is one piece, so that nothing in it is looked at. -/
theorem inTag?_value (hquote : quote = '"' ∨ quote = '\'') (hvalue : quote ∉ value)
    (more : List Char) : inTag? ('=' :: quote :: (value ++ quote :: more)) = inTag? more := by
  have hmark : quote.toLower ≠ 'h' := by
    rcases hquote with rfl | rfl <;> decide
  rw [inTag?_of_hrefHere?_eq_none (hrefHere?_cons_of_ne (by decide) _) rfl]
  exact inTag?_of_hrefHere?_eq_none (hrefHere?_cons_of_ne hmark _)
    ((afterPiece?_quote hquote _).trans (afterQuote?_append hvalue more))

/-- **From one attribute to the next**: the attribute is passed if it does not refer, and gives the
reference if it does and the anchor can be completed behind it. -/
theorem inTag?_body_append (hname : ∀ c ∈ name, isNameChar c = true)
    (hquote : quote = '"' ∨ quote = '\'') (hvalue : quote ∉ value)
    (hmore : completion? more = some (text, rest)) :
    inTag? (name ++ '=' :: quote :: (value ++ quote :: more)) =
      if quote = '"' ∧ "href".toList <:+ Text.lower name then some ((value, text), rest)
      else inTag? more := by
  induction name with
  | nil =>
    rw [if_neg (by simp [Text.lower])]
    exact inTag?_value hquote hvalue more
  | cons c name ih =>
    have hequals : '=' ∉ c :: name := fun hmem ↦ (isNameChar_iff.1 (hname _ hmem)).2.1 rfl
    by_cases hhere : quote = '"' ∧ Text.lower (c :: name) = "href".toList
    · obtain ⟨rfl, hlower⟩ := hhere
      rw [if_pos ⟨rfl, hlower ▸ List.suffix_rfl⟩]
      apply inTag?_of_hereToEnd?
      rw [hereToEnd?, hrefHere?_of_lower_eq hlower hvalue, Option.bind_eq_bind, Option.bind_some]
      dsimp only
      rw [hmore]
      rfl
    · have hnone : hrefHere? (c :: name ++ '=' :: quote :: (value ++ quote :: more)) = none := by
        by_contra hsome
        obtain ⟨found, hfound⟩ := Option.ne_none_iff_exists'.1 hsome
        exact hhere (exists_of_hrefHere? hequals hfound)
      have hpiece := afterPiece?_char (isNameChar_iff.1 (hname c List.mem_cons_self)).2.2
        (name ++ '=' :: quote :: (value ++ quote :: more))
      have hsuffix : (quote = '"' ∧ "href".toList <:+ Text.lower (c :: name)) ↔
          quote = '"' ∧ "href".toList <:+ Text.lower name := by
        refine and_congr_right fun hdouble ↦ ?_
        rw [Text.lower, List.map_cons, List.suffix_cons_iff]
        exact or_iff_right fun heq ↦ hhere ⟨hdouble, heq.symm⟩
      rw [inTag?_of_hrefHere?_eq_none hnone hpiece,
        ih fun d hd ↦ hname d (List.mem_cons_of_mem c hd)]
      simp only [hsuffix]

theorem isPieces_fields (fields : List Field) : IsPieces (fields.flatMap Field.chars) := by
  induction fields with
  | nil => exact .nil
  | cons f fields ih => exact f.isPieces_chars.append ih

/-- **The reference is the first attribute that refers**, whatever the values of the others are. -/
theorem inTag?_fields {fields : List Field} {f : Field} (hf : fields.find? Field.refers = some f)
    (hne : text ≠ []) (htext : '<' ∉ text) (rest : List Char) :
    inTag? (fields.flatMap Field.chars ++ '>' :: (text ++ (endTag ++ rest))) =
      some ((f.value, text), rest) := by
  induction fields with
  | nil => exact absurd hf (Option.some_ne_none f).symm
  | cons g fields ih =>
    have hmore := (isPieces_fields fields).completion?_append hne htext rest
    have hbody := inTag?_body_append g.isNameChar_of_mem g.isQuote g.notMem_value hmore
    have hchars : (g :: fields).flatMap Field.chars ++ '>' :: (text ++ (endTag ++ rest)) =
        ' ' :: (g.name ++ '=' :: g.quote :: (g.value ++
          g.quote :: (fields.flatMap Field.chars ++ '>' :: (text ++ (endTag ++ rest))))) := by
      simp [Field.chars, Field.body]
    rw [hchars, inTag?_space, hbody]
    by_cases hg : g.refers = true
    · rw [if_pos (g.refers_iff.1 hg)]
      rw [List.find?_cons_of_pos hg] at hf
      rw [Option.some.inj hf]
    · rw [if_neg fun h ↦ hg (g.refers_iff.2 h)]
      rw [List.find?_cons_of_neg hg] at hf
      exact ih hf

/-! ### Links -/

/-- An anchor as it is written, with attributes before and behind the one with the name `href`. -/
structure Link where
  before : List Field
  href : List Char
  behind : List Field
  text : List Char
  notMem_href : '"' ∉ href
  text_ne_nil : text ≠ []
  notMem_text : '<' ∉ text

namespace Link

/-- The attribute with the name `href`. -/
def field (l : Link) : Field where
  name := "href".toList
  quote := '"'
  value := l.href
  isNameChar_of_mem := List.all_eq_true.1 (by decide)
  isQuote := Field.isQuote_double
  notMem_value := l.notMem_href

/-- The attributes of the start tag. -/
def fields (l : Link) : List Field := l.before ++ l.field :: l.behind

/-- The anchor behind its opening. -/
def body (l : Link) : List Char := l.fields.flatMap Field.chars ++ '>' :: (l.text ++ endTag)

/-- The anchor as it stands on a page. -/
def chars (l : Link) : List Char := '<' :: 'a' :: l.body

/-- The value that is read as the reference: that of the first attribute that refers. -/
def reference (l : Link) : List Char := (l.before.find? Field.refers).elim l.href Field.value

theorem exists_find?_fields (l : Link) :
    ∃ f, l.fields.find? Field.refers = some f ∧ f.value = l.reference := by
  have hfield : (l.field :: l.behind).find? Field.refers = some l.field :=
    List.find?_cons_of_pos (l.field.refers_iff.2 ⟨rfl, List.suffix_rfl⟩)
  rw [fields, List.find?_append, hfield, reference]
  rcases l.before.find? Field.refers with _ | f
  · exact ⟨l.field, rfl, rfl⟩
  · exact ⟨f, rfl, rfl⟩

/-- **A link is read with its reference and its text**, whatever follows it. -/
theorem here?_chars (l : Link) (rest : List Char) :
    here? (l.chars ++ rest) = some ((l.reference, l.text), rest) := by
  obtain ⟨f, hf, hvalue⟩ := l.exists_find?_fields
  have hread : inTag? (l.body ++ rest) = some ((l.reference, l.text), rest) := by
    have hfields := inTag?_fields hf l.text_ne_nil l.notMem_text rest
    rw [hvalue] at hfields
    simpa [body] using hfields
  -- the tag has an attribute, before which stands the space that opens the tag
  obtain ⟨g, fields, hg⟩ : ∃ g fields, l.fields = g :: fields :=
    List.exists_cons_of_ne_nil (List.append_ne_nil_of_right_ne_nil _ (List.cons_ne_nil _ _))
  obtain ⟨tail, htail, hblank⟩ : ∃ tail, l.body ++ rest = ' ' :: tail ∧
      Text.trimStart tail = tail := by
    refine ⟨g.body ++ (fields.flatMap Field.chars ++ '>' :: (l.text ++ endTag) ++ rest),
      by simp [body, hg, Field.chars], ?_⟩
    rcases hname : g.name with _ | ⟨c, name⟩
    · rw [Field.body, hname]
      exact List.dropWhile_cons_of_neg (by decide)
    · have hc := g.isNameChar_of_mem c (hname ▸ List.mem_cons_self)
      rw [Field.body, hname]
      exact List.dropWhile_cons_of_neg (by simp [(isNameChar_iff.1 hc).1])
  have hstrip : Text.stripWord? "<a".toList (l.chars ++ rest) = some (' ' :: tail) :=
    Text.stripWord?_eq_some.2 ⟨['<', 'a'], by rw [← htail]; rfl, by decide⟩
  rw [htail, inTag?_space] at hread
  rw [here?, hstrip]
  dsimp only
  rw [if_pos (by decide), hblank, hread]

theorem scan_chars_append (l : Link) (rest : List Char) :
    scan (l.chars ++ rest) = (l.reference, l.text) :: scan rest :=
  scan_of_here? (l.here?_chars rest)

/-- The anchor with a value of one of its attributes: entities are decoded, after the blanks around
the text are gone. -/
def anchor (l : Link) (value : List Char) : Anchor where
  href := String.ofList (Text.decodeEntities value)
  text := String.ofList (Text.decodeEntities (Text.trim l.text))

/-- A link alone is one anchor. -/
theorem all_chars (l : Link) : all (String.ofList l.chars) = [l.anchor l.reference] := by
  have hscan := l.scan_chars_append []
  rw [List.append_nil, scan_nil] at hscan
  rw [all, String.toList_ofList, hscan]
  rfl

/-- **The reference of a link** is the value of the first attribute in double quotation marks whose
name ends in the letters of `href`. It is the value of the attribute with the name `href` exactly
when the first such attribute before that one, if there is any, has the same value, entities
decoded. -/
theorem all_eq_iff (l : Link) :
    all (String.ofList l.chars) = [l.anchor l.reference] ∧
      (all (String.ofList l.chars) = [l.anchor l.href] ↔
        ∀ f ∈ l.before.find? Field.refers,
          Text.decodeEntities f.value = Text.decodeEntities l.href) := by
  refine ⟨l.all_chars, ?_⟩
  rw [l.all_chars, List.singleton_inj, anchor, anchor, Anchor.mk.injEq, and_iff_left rfl,
    String.ofList_inj, reference]
  rcases l.before.find? Field.refers with _ | f
  · simp
  · simp

/-- A link with an attribute before its reference whose name ends in the same letters. -/
def sampleLink : Link where
  before := [⟨"data-href".toList, '"', "x".toList, List.all_eq_true.1 (by decide),
    Field.isQuote_double, by decide⟩]
  href := "y".toList
  behind := []
  text := "t".toList
  notMem_href := by decide
  text_ne_nil := by decide
  notMem_text := by decide

/-- **Another attribute is taken for the reference**: the names of the attributes are different,
made of letters, digits and hyphens, and just one of them is `href`. -/
theorem all_sampleLink :
    String.ofList sampleLink.chars = "<a data-href=\"x\" href=\"y\">t</a>" ∧
      (sampleLink.fields.all fun f ↦ f.name.all fun c ↦ c.isAlphanum || c = '-') = true ∧
      (sampleLink.fields.map Field.name).Nodup ∧
      all (String.ofList sampleLink.chars) = [⟨"x", "t"⟩] ∧
      sampleLink.anchor sampleLink.href = ⟨"y", "t"⟩ ∧
      all (String.ofList sampleLink.chars) ≠ [sampleLink.anchor sampleLink.href] := by
  refine ⟨by decide +kernel, by decide +kernel, by decide +kernel, by decide +kernel,
    by decide +kernel, by decide +kernel⟩

end Link

/-! ### Pages of links -/

/-- Links with the text behind each of them. -/
def linksChars (links : List (Link × Filler)) : List Char :=
  links.flatMap fun (l, filler) ↦ l.chars ++ filler

theorem scan_append_linksChars (lead : Filler) (links : List (Link × Filler)) :
    scan (lead ++ linksChars links) = links.map fun (l, _) ↦ (l.reference, l.text) := by
  induction links generalizing lead with
  | nil => rw [linksChars, List.flatMap_nil, List.append_nil, scan_eq_nil lead.2, List.map_nil]
  | cons part links ih =>
    obtain ⟨l, behind⟩ := part
    have hhead : ∀ a ∈ (linksChars ((l, behind) :: links)).head?, a.toLower ≠ 'a' := by
      rintro a ⟨⟩
      decide
    rw [scan_append lead.2 hhead, linksChars, List.flatMap_cons, List.append_assoc,
      l.scan_chars_append, ← linksChars, ih behind, List.map_cons]

/-- A page of links lists the anchors with their references. -/
theorem all_linksChars (lead : Filler) (links : List (Link × Filler)) :
    all (String.ofList (lead ++ linksChars links)) =
      links.map fun (l, _) ↦ l.anchor l.reference := by
  rw [all, String.toList_ofList, scan_append_linksChars, List.map_map]
  rfl

end IndexSnapshot.Anchor
