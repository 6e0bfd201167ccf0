import IndexSnapshot.Proofs.Listing.Pieces

/-!
# Tags as they are written

An anchor is written as a start tag, a text and an end tag. The start tag has the reference first
and then attributes in either kind of quotation marks; a value may hold the mark that ends a tag,
and all quotation marks but its own.

The reader of anchors reads off a whole tag just what was written (`Tag.here?_chars`), and of a tag
that is cut anywhere it reads nothing (`Tag.scan_of_isPrefix`).
-/

namespace IndexSnapshot.Anchor

/-- An attribute of a start tag. -/
structure Attribute where
  /-- How many spaces stand before it, beyond the one that must. -/
  gap : ℕ
  name : List Char
  quote : Char
  value : List Char
  isQuote : quote = '"' ∨ quote = '\''
  /-- A name holds none of the marks that give a tag its form. -/
  isPlain_name : ∀ c ∈ name, c ≠ '<' ∧ c ≠ '>' ∧ c ≠ '"' ∧ c ≠ '\''
  notMem_value : quote ∉ value
  lacksOpening_value : LacksOpening value

/-- An anchor as it is written. -/
structure Tag where
  href : List Char
  attributes : List Attribute
  /-- How many spaces stand before the mark that ends the start tag. -/
  room : ℕ
  text : List Char
  notMem_href : '"' ∉ href
  lacksOpening_href : LacksOpening href
  text_ne_nil : text ≠ []
  notMem_text : '<' ∉ text

namespace Attribute

/-- An attribute with the spaces before it. -/
def chars (a : Attribute) : List Char :=
  List.replicate (a.gap + 1) ' ' ++ (a.name ++ '=' :: a.quote :: (a.value ++ [a.quote]))

theorem isPieces_chars (a : Attribute) : IsPieces a.chars := by
  have hgap : IsPieces (List.replicate (a.gap + 1) ' ') :=
    isPieces_of_forall fun c hc ↦ by rw [List.eq_of_mem_replicate hc]; decide
  have hname : IsPieces a.name := isPieces_of_forall fun c hc ↦ (a.isPlain_name c hc).2
  exact hgap.append (hname.append (.char (by decide) (.quoted a.isQuote a.notMem_value .nil)))

/-- No anchor begins within an attribute, or where it meets what follows. -/
theorem lacksOpening_chars_append (a : Attribute) {rest : List Char} (hrest : LacksOpening rest) :
    LacksOpening (a.chars ++ rest) := by
  have hquote : a.quote ≠ '<' ∧ a.quote.toLower ≠ 'a' := by
    rcases a.isQuote with h | h <;> rw [h] <;> decide
  have hclosed : LacksOpening (a.quote :: rest) :=
    lacksOpening_cons_iff.2 ⟨fun h ↦ hquote.1 h.1, hrest⟩
  have hvalue : LacksOpening (a.value ++ a.quote :: rest) :=
    a.lacksOpening_value.append hclosed fun c hc ↦ by cases hc; exact hquote.2
  have hfront : '<' ∉ List.replicate (a.gap + 1) ' ' ++ (a.name ++ ['=', a.quote]) := by
    simp only [List.mem_append, List.mem_replicate, List.mem_cons, List.not_mem_nil]
    rintro (⟨-, h⟩ | h | h | h | h)
    · exact absurd h (by decide)
    · exact (a.isPlain_name _ h).1 rfl
    · exact absurd h (by decide)
    · exact hquote.1 h.symm
    · exact h
  have h := LacksOpening.append_of_notMem hfront hvalue
  simpa [chars] using h

end Attribute

namespace Tag

variable {t : Tag} {cs : List Char}

/-- The start tag behind the reference, up to the mark that ends it. -/
def further (t : Tag) : List Char :=
  t.attributes.flatMap Attribute.chars ++ List.replicate t.room ' '

/-- The start tag from the reference up to the mark that ends it. -/
def pieces (t : Tag) : List Char :=
  ['h', 'r', 'e', 'f', '=', '"'] ++ (t.href ++ '"' :: t.further)

/-- The tag behind its opening. -/
def body (t : Tag) : List Char := t.pieces ++ '>' :: (t.text ++ endTag)

/-- The tag as it stands on a page. -/
def chars (t : Tag) : List Char := '<' :: 'a' :: ' ' :: t.body

/-- The anchor that the tag is: entities are decoded, after the blanks around the text are gone. -/
def anchor (t : Tag) : Anchor where
  href := String.ofList (Text.decodeEntities t.href)
  text := String.ofList (Text.decodeEntities (Text.trim t.text))

theorem isPieces_further (t : Tag) : IsPieces t.further := by
  have hattributes : IsPieces (t.attributes.flatMap Attribute.chars) := by
    induction t.attributes with
    | nil => exact .nil
    | cons a as ih => exact a.isPieces_chars.append ih
  have hroom : IsPieces (List.replicate t.room ' ') :=
    isPieces_of_forall fun c hc ↦ by rw [List.eq_of_mem_replicate hc]; decide
  exact hattributes.append hroom

theorem isPieces_pieces (t : Tag) : IsPieces t.pieces := by
  have hname : IsPieces ['h', 'r', 'e', 'f', '='] := isPieces_of_forall (by simp)
  exact hname.append (.quoted (.inl rfl) t.notMem_href t.isPieces_further)

/-- No anchor begins within a tag behind its first character. -/
theorem lacksOpening_tail (t : Tag) : LacksOpening ('a' :: ' ' :: t.body) := by
  have hend : LacksOpening endTag :=
    lacksOpening_cons_iff.2 ⟨by rintro ⟨-, a, ⟨⟩, h⟩; exact absurd h (by decide),
      lacksOpening_of_notMem (by decide)⟩
  have htext : LacksOpening ('>' :: t.text ++ endTag) :=
    LacksOpening.append_of_notMem (by simpa using t.notMem_text) hend
  have hroom : LacksOpening (List.replicate t.room ' ' ++ '>' :: (t.text ++ endTag)) :=
    LacksOpening.append_of_notMem (fun h ↦ absurd (List.eq_of_mem_replicate h) (by decide)) htext
  have hattributes : LacksOpening (t.attributes.flatMap Attribute.chars ++
      (List.replicate t.room ' ' ++ '>' :: (t.text ++ endTag))) := by
    induction t.attributes with
    | nil => exact hroom
    | cons a as ih =>
      rw [List.flatMap_cons, List.append_assoc]
      exact a.lacksOpening_chars_append ih
  have hclosed : LacksOpening (['"'] ++ _) :=
    LacksOpening.append_of_notMem (by decide) hattributes
  have hhref := t.lacksOpening_href.append hclosed fun c hc ↦ by cases hc; decide
  have h : LacksOpening (['a', ' ', 'h', 'r', 'e', 'f', '=', '"'] ++ _) :=
    LacksOpening.append_of_notMem (by decide) hhref
  simpa [body, pieces, further] using h

/-! ### Whole tags -/

theorem hrefHere?_pieces (t : Tag) (rest : List Char) : hrefHere? (t.pieces ++ rest) =
    some (t.href, t.further ++ rest) := by
  have hstrip : ∀ cs,
      Text.stripWord? "href=\"".toList (['h', 'r', 'e', 'f', '=', '"'] ++ cs) = some cs :=
    fun cs ↦ Text.stripWord?_eq_some.2 ⟨['h', 'r', 'e', 'f', '=', '"'], rfl, by decide⟩
  have hbefore : ∀ c ∈ t.href, decide (c ≠ '"') = true := fun c hc ↦
    decide_eq_true fun heq ↦ t.notMem_href (heq ▸ hc)
  rw [hrefHere?, pieces, List.append_assoc, List.append_assoc, hstrip, Option.bind_eq_bind,
    Option.bind_some, List.cons_append, afterQuote?_append t.notMem_href, Option.bind_some,
    List.takeWhile_append_of_pos hbefore, List.takeWhile_cons_of_neg (by simp),
    List.append_nil]
  rfl

/-- The blanks behind the opening end where the reference begins. -/
theorem trimStart_of_isPrefix (hcs : cs <+: t.body) : Text.trimStart cs = cs := by
  cases cs with
  | nil => rfl
  | cons c cs =>
    obtain ⟨rfl, -⟩ := List.cons_prefix_cons.1 hcs
    exact List.dropWhile_cons_of_neg (by decide)

/-- **A whole tag is read as it was written.** -/
theorem here?_chars (t : Tag) (rest : List Char) :
    here? (t.chars ++ rest) = some ((t.href, t.text), rest) := by
  have hbody : hereToEnd? (t.body ++ rest) = some ((t.href, t.text), rest) := by
    have hcompletion := t.isPieces_further.completion?_append t.text_ne_nil t.notMem_text rest
    rw [hereToEnd?, body, List.append_assoc, hrefHere?_pieces, Option.bind_eq_bind,
      Option.bind_some, List.cons_append, List.append_assoc]
    dsimp only
    rw [hcompletion]
    rfl
  have htrim : Text.trimStart (t.body ++ rest) = t.body ++ rest :=
    List.dropWhile_cons_of_neg (by decide)
  have hstrip : Text.stripWord? "<a".toList (t.chars ++ rest) = some (' ' :: (t.body ++ rest)) :=
    Text.stripWord?_eq_some.2 ⟨['<', 'a'], rfl, by decide⟩
  rw [here?, hstrip]
  dsimp only
  rw [if_pos (by decide), htrim, inTag?, hbody]

theorem scan_chars_append (t : Tag) (rest : List Char) :
    scan (t.chars ++ rest) = (t.href, t.text) :: scan rest :=
  scan_of_here? (t.here?_chars rest)

/-! ### Tags that are cut -/

/-- The beginning of a tag behind its opening cannot be completed. -/
theorem completion?_of_isPrefix (hcs : cs <+: t.body) (hne : cs ≠ t.body) :
    completion? cs = none := by
  rcases List.prefix_or_prefix_of_prefix hcs (List.prefix_append t.pieces _) with h | ⟨back, rfl⟩
  · exact completion?_of_head?_ne (t.isPieces_pieces.head?_skipPieces_of_isPrefix h)
  · have hback := (List.prefix_append_right_inj t.pieces).1 hcs
    cases back with
    | nil =>
      exact completion?_of_head?_ne (t.isPieces_pieces.head?_skipPieces_of_isPrefix (by simp))
    | cons c back =>
      obtain ⟨rfl, hback'⟩ := List.cons_prefix_cons.1 hback
      exact t.isPieces_pieces.completion?_of_isPrefix t.notMem_text hback' fun heq ↦
        hne (by rw [heq, body])

/-- **Nothing is read of a tag that is cut.** -/
theorem scan_of_isPrefix (hcs : cs <+: t.chars) (hne : cs ≠ t.chars) : scan cs = [] := by
  cases cs with
  | nil => exact scan_nil
  | cons c tail =>
    obtain ⟨rfl, htail⟩ := List.cons_prefix_cons.1 hcs
    have hhere : here? ('<' :: tail) = none := by
      match tail, htail with
      | [], _ => rfl
      | [a], htail =>
        obtain ⟨rfl, -⟩ := List.cons_prefix_cons.1 htail
        rfl
      | a :: b :: cs, htail =>
        obtain ⟨rfl, hspace⟩ := List.cons_prefix_cons.1 htail
        obtain ⟨rfl, hbody⟩ := List.cons_prefix_cons.1 hspace
        have hstrip : Text.stripWord? "<a".toList ('<' :: 'a' :: ' ' :: cs) = some (' ' :: cs) :=
          Text.stripWord?_eq_some.2 ⟨['<', 'a'], rfl, by decide⟩
        have hcut : cs ≠ t.body := fun heq ↦ hne (by rw [heq]; rfl)
        rw [here?, hstrip]
        dsimp only
        rw [if_pos (by decide), trimStart_of_isPrefix hbody,
          inTag?_eq_none (completion?_of_isPrefix hbody hcut)]
    rw [scan_cons_of_here? hhere]
    exact scan_eq_nil (t.lacksOpening_tail.of_isInfix htail.isInfix)

end Tag

end IndexSnapshot.Anchor
