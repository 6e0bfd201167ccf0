import IndexSnapshot.Listing.Anchor
import IndexSnapshot.Proofs.Text.Letters
import Mathlib.Data.List.TakeWhile
import Mathlib.Order.Basic

/-!
# How the reader of anchors walks

The reader of anchors passes over text in which nothing looks like the beginning of an anchor
(`scan_append`). In a start tag it walks from piece to piece: whole pieces are skipped, and when the
pieces are cut anywhere it is stuck before the mark that ends the tag
(`IsPieces.head?_skipPieces_of_isPrefix`). Whether an anchor can be completed does not depend on the
reference that is tried, so that a tag without completion is left at once (`inTag?_eq_none`).
-/

namespace IndexSnapshot.Anchor

variable {cs ds rest : List Char} {c quote : Char}

/-! ### Where no anchor begins -/

/-- Nothing in the text looks like the beginning of an anchor. -/
def LacksOpening (cs : List Char) : Prop := ¬ "<a".toList <:+: Text.lower cs

instance (cs : List Char) : Decidable (LacksOpening cs) :=
  inferInstanceAs (Decidable (¬ "<a".toList <:+: Text.lower cs))

theorem LacksOpening.of_isInfix (h : LacksOpening cs) (hds : ds <:+: cs) : LacksOpening ds :=
  fun hopening ↦ h (hopening.trans (hds.map Char.toLower))

/-- The beginning of an anchor, character by character. -/
theorem opening_prefix_iff :
    "<a".toList <+: Text.lower cs ↔ ∃ a rest, cs = '<' :: a :: rest ∧ a.toLower = 'a' := by
  constructor
  · rintro ⟨more, hmore⟩
    match cs with
    | [] => cases hmore
    | [_] => simp [Text.lower] at hmore
    | c :: a :: rest =>
      simp only [String.toList, Text.lower, List.map_cons] at hmore
      have hc : '<' = c.toLower := (List.cons_eq_cons.1 hmore).1
      have ha : 'a' = a.toLower := (List.cons_eq_cons.1 (List.cons_eq_cons.1 hmore).2).1
      rw [(Text.toLower_eq_iff (by decide)).1 hc.symm]
      exact ⟨a, rest, rfl, ha.symm⟩
  · rintro ⟨a, rest, rfl, ha⟩
    exact ⟨Text.lower rest, by simp [Text.lower, ha]⟩

/-- Taken apart at the front, a text has an opening there or further behind. -/
theorem lacksOpening_cons_iff : LacksOpening (c :: cs) ↔
    ¬ (c = '<' ∧ ∃ a ∈ cs.head?, a.toLower = 'a') ∧ LacksOpening cs := by
  have hfront : "<a".toList <+: Text.lower (c :: cs) ↔
      c = '<' ∧ ∃ a ∈ cs.head?, a.toLower = 'a' := by
    rw [opening_prefix_iff]
    constructor
    · rintro ⟨a, rest, hcs, ha⟩
      obtain ⟨rfl, rfl⟩ := List.cons_eq_cons.1 hcs
      exact ⟨rfl, a, rfl, ha⟩
    · rintro ⟨rfl, a, hmem, ha⟩
      obtain ⟨rest, rfl⟩ := List.head?_eq_some_iff.1 hmem
      exact ⟨a, rest, rfl, ha⟩
  have hinfix : "<a".toList <:+: Text.lower (c :: cs) ↔
      "<a".toList <+: Text.lower (c :: cs) ∨ "<a".toList <:+: Text.lower cs :=
    List.infix_cons_iff
  rw [LacksOpening, hinfix, hfront, not_or]
  rfl

theorem lacksOpening_nil : LacksOpening [] := by
  rintro ⟨front, back, h⟩
  simp [Text.lower] at h

/-- Texts without openings are put together, unless the second one goes on with the letter that
makes an opening. -/
theorem LacksOpening.append (hcs : LacksOpening cs) (hds : LacksOpening ds)
    (hhead : ∀ a ∈ ds.head?, a.toLower ≠ 'a') : LacksOpening (cs ++ ds) := by
  induction cs with
  | nil => exact hds
  | cons c cs ih =>
    obtain ⟨hfront, hcs⟩ := lacksOpening_cons_iff.1 hcs
    refine lacksOpening_cons_iff.2 ⟨?_, ih hcs⟩
    rintro ⟨rfl, a, ha, hlower⟩
    cases cs with
    | nil => exact hhead a ha hlower
    | cons e cs => exact hfront ⟨rfl, a, ha, hlower⟩

/-- A text without the mark that opens a tag has no opening, whatever follows it. -/
theorem LacksOpening.append_of_notMem (hcs : '<' ∉ cs) (hds : LacksOpening ds) :
    LacksOpening (cs ++ ds) := by
  induction cs with
  | nil => exact hds
  | cons c cs ih =>
    rw [List.mem_cons, not_or] at hcs
    exact lacksOpening_cons_iff.2 ⟨fun h ↦ hcs.1 h.1.symm, ih hcs.2⟩

theorem lacksOpening_of_notMem (hcs : '<' ∉ cs) : LacksOpening cs := by
  simpa using LacksOpening.append_of_notMem hcs lacksOpening_nil

theorem here?_eq_none (h : ¬ "<a".toList <+: Text.lower cs) : here? cs = none := by
  have hstrip : Text.stripWord? "<a".toList cs = none := by
    rw [Option.eq_none_iff_forall_not_mem]
    intro rest hrest
    obtain ⟨taken, rfl, htaken⟩ := Text.stripWord?_eq_some.1 hrest
    exact h ⟨Text.lower rest, by rw [← htaken, Text.lower, Text.lower, Text.lower, List.map_append]⟩
  rw [here?, hstrip]

theorem scan_of_here? {found : List Char × List Char} (h : here? cs = some (found, rest)) :
    scan cs = found :: scan rest := by
  rw [scan]
  split
  · rename_i heq
    cases h.symm.trans heq
    rfl
  · rename_i heq
    cases h.symm.trans heq

theorem scan_cons_of_here? (h : here? (c :: cs) = none) : scan (c :: cs) = scan cs := by
  rw [scan]
  split
  · rename_i heq
    cases h.symm.trans heq
  · rfl

theorem scan_nil : scan [] = [] := by
  rw [scan]
  rfl

/-- **Text without openings is passed over.** -/
theorem scan_append (hcs : LacksOpening cs) (hhead : ∀ a ∈ rest.head?, a.toLower ≠ 'a') :
    scan (cs ++ rest) = scan rest := by
  induction cs with
  | nil => rfl
  | cons c cs ih =>
    obtain ⟨hfront, hcs⟩ := lacksOpening_cons_iff.1 hcs
    rw [← ih hcs]
    refine scan_cons_of_here? (here?_eq_none fun hopening ↦ ?_)
    obtain ⟨a, more, hmore, ha⟩ := opening_prefix_iff.1 hopening
    obtain ⟨hc, hmore⟩ := List.cons_eq_cons.1 hmore
    cases cs with
    | nil => exact hhead a (by rw [show rest = a :: more from hmore]; rfl) ha
    | cons e cs => exact hfront ⟨hc, e, rfl, (List.cons_eq_cons.1 hmore).1 ▸ ha⟩

theorem scan_eq_nil (hcs : LacksOpening cs) : scan cs = [] := by
  have h : scan (cs ++ []) = scan [] := scan_append hcs (by simp)
  rwa [List.append_nil, scan_nil] at h

/-! ### Pieces -/

/-- Whole pieces of a start tag, one after the other. -/
inductive IsPieces : List Char → Prop
  | nil : IsPieces []
  | char {c : Char} {cs : List Char} (hc : c ≠ '>' ∧ c ≠ '"' ∧ c ≠ '\'') (hcs : IsPieces cs) :
      IsPieces (c :: cs)
  | quoted {quote : Char} {value cs : List Char} (hquote : quote = '"' ∨ quote = '\'')
      (hvalue : quote ∉ value) (hcs : IsPieces cs) : IsPieces (quote :: (value ++ quote :: cs))

theorem IsPieces.append (hcs : IsPieces cs) (hds : IsPieces ds) : IsPieces (cs ++ ds) := by
  induction hcs with
  | nil => exact hds
  | char hc hcs ih => exact .char hc ih
  | @quoted quote value cs hquote hvalue hcs ih =>
    rw [List.cons_append, List.append_assoc, List.cons_append]
    exact .quoted hquote hvalue ih

theorem isPieces_of_forall (h : ∀ c ∈ cs, c ≠ '>' ∧ c ≠ '"' ∧ c ≠ '\'') : IsPieces cs := by
  induction cs with
  | nil => exact .nil
  | cons c cs ih =>
    exact .char (h c List.mem_cons_self) (ih fun d hd ↦ h d (List.mem_cons_of_mem c hd))

theorem afterQuote?_append (h : quote ∉ cs) (rest : List Char) :
    afterQuote? quote (cs ++ quote :: rest) = some rest := by
  have hbefore : ∀ c ∈ cs, decide (c ≠ quote) = true := fun c hc ↦
    decide_eq_true fun heq ↦ h (heq ▸ hc)
  rw [afterQuote?, List.dropWhile_append_of_pos hbefore, List.dropWhile_cons_of_neg (by simp)]

theorem eq_of_afterQuote? (h : afterQuote? quote cs = some rest) :
    ∃ value, quote ∉ value ∧ cs = value ++ quote :: rest := by
  refine ⟨cs.takeWhile fun c ↦ decide (c ≠ quote), fun hmem ↦ ?_, ?_⟩
  · simpa using List.mem_takeWhile_imp hmem
  · unfold afterQuote? at h
    split at h
    · cases h
    · rename_i c tail heq
      have hc : decide (c ≠ quote) = false := by
        have hhead := List.head_dropWhile_not (fun c ↦ decide (c ≠ quote)) (l := cs)
          (by rw [heq]; exact List.cons_ne_nil _ _)
        simpa only [heq, List.head_cons] using hhead
      cases h
      rw [← show c = quote by simpa using hc] at heq ⊢
      rw [← heq, List.takeWhile_append_dropWhile]

theorem afterQuote?_of_notMem (h : quote ∉ cs) : afterQuote? quote cs = none := by
  have hnone : cs.dropWhile (fun c ↦ decide (c ≠ quote)) = [] :=
    
    List.dropWhile_eq_nil_iff.2 fun c hc ↦ decide_eq_true fun (heq : c = quote) ↦ h (heq ▸ hc)
  rw [afterQuote?, hnone]

theorem afterPiece?_char (hc : c ≠ '>' ∧ c ≠ '"' ∧ c ≠ '\'') (cs : List Char) :
    afterPiece? (c :: cs) = some cs := by
  obtain ⟨hend, hdouble, hsingle⟩ := hc
  unfold afterPiece?
  split <;> simp_all

theorem afterPiece?_quote (hquote : quote = '"' ∨ quote = '\'') (cs : List Char) :
    afterPiece? (quote :: cs) = afterQuote? quote cs := by
  rcases hquote with rfl | rfl <;> rfl

theorem skipPieces_of_some (h : afterPiece? cs = some rest) : skipPieces cs = skipPieces rest := by
  rw [skipPieces]
  split
  · rename_i heq
    cases h.symm.trans heq
    rfl
  · rename_i heq
    cases h.symm.trans heq

theorem skipPieces_of_none (h : afterPiece? cs = none) : skipPieces cs = cs := by
  rw [skipPieces]
  split
  · rename_i heq
    cases h.symm.trans heq
  · rfl

/-- **Whole pieces are skipped.** -/
theorem IsPieces.skipPieces_append (hcs : IsPieces cs) (rest : List Char) :
    skipPieces (cs ++ rest) = skipPieces rest := by
  induction hcs with
  | nil => rfl
  | char hc hcs ih => rw [List.cons_append, skipPieces_of_some (afterPiece?_char hc _), ih]
  | @quoted quote value cs hquote hvalue hcs ih =>
    have hafter : afterPiece? (quote :: (value ++ quote :: (cs ++ rest))) = some (cs ++ rest) := by
      rw [afterPiece?_quote hquote, afterQuote?_append hvalue]
    rw [List.cons_append, List.append_assoc, List.cons_append, skipPieces_of_some hafter, ih]

/-- **Pieces that are cut anywhere do not lead to the end of a tag**, but to the end of the text or
to a quotation mark that is never closed. -/
theorem IsPieces.head?_skipPieces_of_isPrefix (hcs : IsPieces cs) (hds : ds <+: cs) :
    (skipPieces ds).head? ≠ some '>' := by
  induction hcs generalizing ds with
  | nil =>
    rw [List.prefix_nil.1 hds, skipPieces_of_none rfl]
    exact nofun
  | @char c cs hc hcs ih =>
    cases ds with
    | nil =>
      rw [skipPieces_of_none rfl]
      exact nofun
    | cons d ds =>
      obtain ⟨rfl, htail⟩ := List.cons_prefix_cons.1 hds
      rw [skipPieces_of_some (afterPiece?_char hc ds)]
      exact ih htail
  | @quoted quote value cs hquote hvalue hcs ih =>
    cases ds with
    | nil =>
      rw [skipPieces_of_none rfl]
      exact nofun
    | cons d ds =>
      obtain ⟨rfl, htail⟩ := List.cons_prefix_cons.1 hds
      have hstuck : d ∉ ds → (skipPieces (d :: ds)).head? ≠ some '>' := by
        intro hmem
        rw [skipPieces_of_none (by rw [afterPiece?_quote hquote, afterQuote?_of_notMem hmem])]
        rintro ⟨⟩
        simp at hquote
      -- the cut is within the value, or behind its closing mark
      rcases List.prefix_or_prefix_of_prefix htail (List.prefix_append value _) with h | ⟨back, rfl⟩
      · exact hstuck fun hmem ↦ hvalue (h.subset hmem)
      · cases back with
        | nil => exact hstuck (by rwa [List.append_nil])
        | cons e back =>
          obtain ⟨rfl, hback⟩ :=
            List.cons_prefix_cons.1 ((List.prefix_append_right_inj value).1 htail)
          have hafter : afterPiece? (e :: (value ++ e :: back)) = some back := by
            rw [afterPiece?_quote hquote, afterQuote?_append hvalue]
          rw [skipPieces_of_some hafter]
          exact ih hback

/-! ### Completions -/

/-- How an anchor is completed is a matter of what follows the start tag. -/
theorem completion?_congr (h : skipPieces cs = skipPieces ds) :
    completion? cs = completion? ds := by
  rw [completion?, completion?, h]

theorem completion?_of_head?_ne (h : (skipPieces cs).head? ≠ some '>') : completion? cs = none := by
  rw [completion?]
  split
  · rename_i heq
    exact absurd (congrArg List.head? heq) h
  · rfl

/-- The end tag. -/
def endTag : List Char := ['<', '/', 'a', '>']

/-- The text and the end tag of an anchor, after its start tag. -/
theorem IsPieces.completion?_append (hcs : IsPieces cs) {text : List Char} (hne : text ≠ [])
    (htext : '<' ∉ text) (rest : List Char) :
    completion? (cs ++ '>' :: (text ++ (endTag ++ rest))) = some (text, rest) := by
  have hbefore : ∀ c ∈ text, decide (c ≠ '<') = true := fun c hc ↦
    decide_eq_true fun heq ↦ htext (heq ▸ hc)
  have htaken : (text ++ (endTag ++ rest)).takeWhile (fun c ↦ decide (c ≠ '<')) = text := by
    rw [List.takeWhile_append_of_pos hbefore]
    simp [endTag]
  have hdropped : (text ++ (endTag ++ rest)).dropWhile (fun c ↦ decide (c ≠ '<')) =
      endTag ++ rest := by
    rw [List.dropWhile_append_of_pos hbefore]
    simp [endTag]
  have hstrip : Text.stripWord? "</a>".toList (endTag ++ rest) = some rest :=
    Text.stripWord?_eq_some.2 ⟨endTag, rfl, by decide⟩
  rw [completion?, hcs.skipPieces_append, skipPieces_of_none rfl]
  simp only [htaken, hdropped, hstrip, Option.map_some]

/-- Without the whole end tag an anchor is not completed. -/
theorem IsPieces.completion?_of_isPrefix (hcs : IsPieces cs) {text : List Char} (htext : '<' ∉ text)
    (hds : ds <+: text ++ endTag) (hne : ds ≠ text ++ endTag) :
    completion? (cs ++ '>' :: ds) = none := by
  have hlength : (ds.dropWhile fun c ↦ decide (c ≠ '<')).length < endTag.length := by
    rcases List.prefix_or_prefix_of_prefix hds (List.prefix_append text _) with h | ⟨back, rfl⟩
    · have hnone : ds.dropWhile (fun c ↦ decide (c ≠ '<')) = [] :=
        List.dropWhile_eq_nil_iff.2 fun c hc ↦ decide_eq_true fun (heq : c = '<') ↦
          htext (h.subset (heq ▸ hc))
      rw [hnone]
      decide
    · have hback := (List.prefix_append_right_inj text).1 hds
      have hlt : back.length < endTag.length :=
        lt_of_le_of_ne hback.length_le fun heq ↦ hne (by rw [hback.eq_of_length heq])
      have hbefore : ∀ c ∈ text, decide (c ≠ '<') = true := fun c hc ↦
        decide_eq_true fun heq ↦ htext (heq ▸ hc)
      rw [List.dropWhile_append_of_pos hbefore]
      exact (List.dropWhile_sublist _).length_le.trans_lt hlt
  have hstrip : Text.stripWord? "</a>".toList (ds.dropWhile fun c ↦ decide (c ≠ '<')) = none := by
    rw [Option.eq_none_iff_forall_not_mem]
    intro rest hrest
    obtain ⟨taken, hdrop, htaken⟩ := Text.stripWord?_eq_some.1 hrest
    have hfour : taken.length = endTag.length := by
      rw [← List.length_map Char.toLower, show taken.map Char.toLower = endTag from htaken]
    rw [hdrop, List.length_append] at hlength
    omega
  rw [completion?, hcs.skipPieces_append, skipPieces_of_none rfl]
  simp only [hstrip]
  split <;> rfl

/-- What is read of a reference is made of whole pieces. -/
theorem skipPieces_of_hrefHere? {href : List Char} (h : hrefHere? cs = some (href, rest)) :
    skipPieces rest = skipPieces cs := by
  unfold hrefHere? at h
  obtain ⟨opened, hopened, h⟩ := Option.bind_eq_some_iff.1 h
  obtain ⟨closed, hclosed, h⟩ := Option.bind_eq_some_iff.1 h
  obtain ⟨rfl, rfl⟩ := Prod.mk.inj (Option.some.inj h)
  obtain ⟨taken, rfl, htaken⟩ := Text.stripWord?_eq_some.1 hopened
  obtain ⟨value, hvalue, rfl⟩ := eq_of_afterQuote? hclosed
  obtain ⟨name, marks, rfl, hname, hmarks⟩ : ∃ name marks, taken = name ++ marks ∧
      Text.lower name = "href=".toList ∧ Text.lower marks = ['"'] :=
    List.map_eq_append_iff.1 (htaken.trans rfl)
  obtain ⟨mark, rfl, hmark⟩ := List.map_eq_singleton_iff.1 hmarks
  obtain rfl := (Text.toLower_eq_iff (by decide)).1 hmark
  have hplain : ∀ c ∈ name, c ≠ '>' ∧ c ≠ '"' ∧ c ≠ '\'' := by
    intro c hc
    have hmem : c.toLower ∈ "href=".toList := hname ▸ List.mem_map_of_mem hc
    refine ⟨?_, ?_, ?_⟩
    all_goals
      rintro rfl
      exact absurd hmem (by decide)
  have hpieces : IsPieces (name ++ '"' :: (value ++ ['"'])) :=
    (isPieces_of_forall hplain).append (.quoted (.inl rfl) hvalue .nil)
  rw [← hpieces.skipPieces_append]
  simp

/-- Where an anchor cannot be completed none is found, whichever reference is tried. -/
theorem inTag?_eq_none (h : completion? cs = none) : inTag? cs = none := by
  have hhere : ∀ {cs : List Char}, completion? cs = none → hereToEnd? cs = none := by
    intro cs h
    rw [hereToEnd?]
    cases hhref : hrefHere? cs with
    | none => rfl
    | some found =>
      obtain ⟨href, rest⟩ := found
      rw [← completion?_congr (skipPieces_of_hrefHere? hhref)] at h
      simp [h]
  fun_induction inTag? cs with
  | case1 cs found heq =>
    rw [hhere h] at heq
    cases heq
  | case2 cs _ rest hpiece ih => exact ih (by rwa [← completion?_congr (skipPieces_of_some hpiece)])
  | case3 => rfl

end IndexSnapshot.Anchor
