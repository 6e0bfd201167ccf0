import IndexSnapshot.Discovery.Run
import IndexSnapshot.Proofs.Listing.Tag
import IndexSnapshot.Proofs.Text.Units

/-!
# Pages that are cut

A page of tags with other text between them lists the anchors of its tags, in the order of the page.
When the page is cut after any number of units, it lists the anchors of the tags that end within
what is left (`scan_takeUnits`): a tag that is cut is not read, and neither is anything before it or
behind it. In debug mode the names of an index are those of the tags in its first part.
-/

namespace IndexSnapshot.Anchor

/-- Text between tags, in which nothing looks like the beginning of one. -/
abbrev Filler : Type := {cs : List Char // LacksOpening cs}

/-- A page of an index: text, and then tags with text behind each of them. -/
structure Page where
  lead : Filler
  parts : List (Tag × Filler)

/-- Tags with the text behind each of them. -/
def partsChars (parts : List (Tag × Filler)) : List Char :=
  parts.flatMap fun (t, filler) ↦ t.chars ++ filler

/-- The tags with the places where they end, counted in units from a place to start from. -/
def ends (start : ℕ) : List (Tag × Filler) → List (ℕ × Tag)
  | [] => []
  | (t, filler) :: parts =>
    let stop := start + Text.unitCount t.chars
    (stop, t) :: ends (stop + Text.unitCount filler) parts

namespace Page

/-- The page as it is written. -/
def chars (p : Page) : List Char := p.lead ++ partsChars p.parts

/-- The text of the page. -/
def text (p : Page) : String := String.ofList p.chars

/-- The tags of a page, in the order of the page. -/
def tags (p : Page) : List Tag := p.parts.map Prod.fst

/-- The tags that end within the first units of a page. -/
def tagsWithin (p : Page) (n : ℕ) : List Tag :=
  ((ends (Text.unitCount p.lead) p.parts).filter fun (stop, _) ↦ stop ≤ n).map Prod.snd

end Page

variable {parts : List (Tag × Filler)} {start n stop : ℕ} {t : Tag}

/-! ### Where tags end -/

theorem map_snd_ends (start : ℕ) (parts : List (Tag × Filler)) :
    (ends start parts).map Prod.snd = parts.map Prod.fst := by
  induction parts generalizing start with
  | nil => rfl
  | cons part parts ih => rw [ends, List.map_cons, List.map_cons, ih]

/-- Tags end behind the place to start from, and not behind the end of the text. -/
theorem bounds_of_mem_ends (h : (stop, t) ∈ ends start parts) :
    start < stop ∧ stop ≤ start + Text.unitCount (partsChars parts) := by
  induction parts generalizing start with
  | nil => exact absurd h List.not_mem_nil
  | cons part parts ih =>
    obtain ⟨t', filler⟩ := part
    have hcount : Text.unitCount (partsChars ((t', filler) :: parts)) =
        Text.unitCount t'.chars + Text.unitCount filler + Text.unitCount (partsChars parts) := by
      rw [partsChars, List.flatMap_cons, Text.unitCount_append, Text.unitCount_append]
      rfl
    have hpos : 0 < Text.unitCount t'.chars := by
      rw [Tag.chars, Text.unitCount_cons]
      exact Nat.add_pos_left (by decide) _
    rw [hcount]
    rcases List.mem_cons.1 h with heq | h
    · obtain ⟨rfl, rfl⟩ := Prod.mk.inj heq
      omega
    · have := ih h
      omega

/-- Nothing ends within a page that stops before all of it. -/
theorem filter_ends_eq_nil (h : n ≤ start) :
    (ends start parts).filter (fun (stop, _) ↦ stop ≤ n) = [] := by
  refine List.filter_eq_nil_iff.2 fun (stop, t) hmem ↦ ?_
  have := (bounds_of_mem_ends hmem).1
  simp only [decide_eq_true_eq]
  omega

/-! ### Reading what is left of a page -/

/-- Tags with text behind each begin with the mark that opens a tag, wherever they are cut. -/
theorem toLower_head?_takeUnits :
    ∀ a ∈ (Text.takeUnits n (partsChars parts)).head?, a.toLower ≠ 'a' := by
  intro a ha
  obtain ⟨rest, hrest⟩ := List.head?_eq_some_iff.1 ha
  have hhead := Text.takeUnits_prefix n (partsChars parts)
  rw [hrest] at hhead
  cases parts with
  | nil => exact absurd (List.prefix_nil.1 hhead) (List.cons_ne_nil _ _)
  | cons part parts =>
    obtain ⟨rfl, -⟩ := List.cons_prefix_cons.1 hhead
    decide

/-- **Of a page that is cut the tags that end within what is left are read.** -/
theorem scan_takeUnits (filler : Filler) (parts : List (Tag × Filler)) (start n : ℕ) :
    scan (Text.takeUnits n (filler ++ partsChars parts)) =
      ((ends (start + Text.unitCount filler) parts).filter
        fun (stop, _) ↦ stop ≤ start + n).map fun (_, t) ↦ (t.href, t.text) := by
  induction parts generalizing filler start n with
  | nil =>
    have hhead := Text.takeUnits_prefix n filler
    rw [partsChars, List.flatMap_nil, List.append_nil]
    exact scan_eq_nil (filler.2.of_isInfix hhead.isInfix)
  | cons part parts ih =>
    obtain ⟨t, behind⟩ := part
    rcases Nat.lt_or_ge n (Text.unitCount filler) with hlt | hge
    · -- the page is cut within the text before the tag
      rw [Text.takeUnits_append_of_lt hlt, filter_ends_eq_nil (by omega)]
      exact scan_eq_nil (filler.2.of_isInfix (Text.takeUnits_prefix n filler).isInfix)
    · rw [Text.takeUnits_append_of_le hge, scan_append filler.2 toLower_head?_takeUnits,
        partsChars, List.flatMap_cons, List.append_assoc, ← partsChars, ends]
      rcases Nat.lt_or_ge (n - Text.unitCount filler) (Text.unitCount t.chars) with hcut | hwhole
      · -- the page is cut within the tag
        rw [Text.takeUnits_append_of_lt hcut, List.filter_cons_of_neg (by simp; omega),
          filter_ends_eq_nil (by omega)]
        exact Tag.scan_of_isPrefix (Text.takeUnits_prefix _ _) (Text.takeUnits_ne_of_lt hcut)
      · rw [Text.takeUnits_append_of_le hwhole, Tag.scan_chars_append,
          List.filter_cons_of_pos (by simp; omega), List.map_cons,
          ih behind (start + Text.unitCount filler + Text.unitCount t.chars)]
        have hn : start + Text.unitCount filler + Text.unitCount t.chars +
            (n - Text.unitCount filler - Text.unitCount t.chars) = start + n := by omega
        rw [hn]

theorem all_takeUnits (p : Page) (n : ℕ) :
    all (String.ofList (Text.takeUnits n p.chars)) = (p.tagsWithin n).map Tag.anchor := by
  have hscan := scan_takeUnits p.lead p.parts 0 n
  simp only [Nat.zero_add] at hscan
  rw [all, String.toList_ofList, Page.chars, hscan, Page.tagsWithin, List.map_map, List.map_map]
  rfl

/-- All tags end within the whole page. -/
theorem tagsWithin_unitCount (p : Page) : p.tagsWithin (Text.unitCount p.chars) = p.tags := by
  have hall : ∀ e ∈ ends (Text.unitCount p.lead) p.parts,
      decide (e.1 ≤ Text.unitCount p.chars) = true := by
    rintro ⟨stop, t⟩ hmem
    rw [Page.chars, Text.unitCount_append]
    exact decide_eq_true (bounds_of_mem_ends hmem).2
  rw [Page.tagsWithin, List.filter_eq_self.2 hall, map_snd_ends, Page.tags]

/-! ### Names -/

theorem replaceEntity_eq_nil_iff {name : List Char} {meaning : Char} {cs : List Char} :
    Text.replaceEntity name meaning cs = [] ↔ cs = [] := by
  cases cs with
  | nil => simp [Text.replaceEntity]
  | cons c cs =>
    rw [Text.replaceEntity]
    split <;> simp

/-- Entities stand for something. -/
theorem decodeEntities_eq_nil_iff {cs : List Char} : Text.decodeEntities cs = [] ↔ cs = [] := by
  simp only [Text.decodeEntities, Text.entities, List.foldl_cons, List.foldl_nil,
    replaceEntity_eq_nil_iff]

theorem anchor_text_eq_iff (t : Tag) : t.anchor.text = "" ↔ Text.trim t.text = [] := by
  rw [← decodeEntities_eq_nil_iff, Tag.anchor, ← String.toList_inj, String.toList_ofList]
  rfl

theorem names_eq {page : String} {ts : List Tag} (h : all page = ts.map Tag.anchor) :
    Listing.names page =
      (ts.filter fun t ↦ Text.trim t.text ≠ []).map fun t ↦ t.anchor.text := by
  rw [Listing.names, h, List.map_map, List.filter_map]
  congr 1
  refine List.filter_congr fun t _ ↦ ?_
  simp [anchor_text_eq_iff]

/-- **A page lists the anchors of its tags**, and when it is cut after any number of units those of
the tags that end before the cut. In debug mode the packages of an index are those whose tags end
within its first thousand units, tags with a blank text aside. -/
theorem all_eq_map_anchor (p : Page) :
    all p.text = p.tags.map Tag.anchor ∧
      (∀ n, all (String.ofList (Text.takeUnits n p.chars)) = (p.tagsWithin n).map Tag.anchor) ∧
      ∀ (world : World) (simpleBase : String),
        world.fetch (simpleBase ++ "/") = .ok (.string p.text) →
        (Discovery.run world (.fullIndex simpleBase true)).1 =
          .ok (((p.tagsWithin 1000).filter fun t ↦ Text.trim t.text ≠ []).map
            fun t ↦ t.anchor.text) := by
  refine ⟨?_, all_takeUnits p, fun world simpleBase hpage ↦ ?_⟩
  · have hwhole := all_takeUnits p (Text.unitCount p.chars)
    rwa [Text.takeUnits_of_le (Nat.le_refl _), tagsWithin_unitCount] at hwhole
  · have hnames := names_eq (all_takeUnits p 1000)
    rw [Discovery.run, Discovery.fromIndex, hpage]
    dsimp only
    rw [Discovery.namesOnPage, if_pos rfl, Page.text, String.toList_ofList]
    exact congrArg Except.ok hnames

/-- The tag of a package, with values that hold quotation marks of the other kind, marks that end a
tag, and what looks like the rest of an anchor. -/
def sampleTag : Tag where
  href := "/simple/foo/?a>b".toList
  attributes :=
    [⟨0, "data-requires-python".toList, '"', ">=3.7, 'x'".toList, .inl rfl, by simp, by decide,
        by decide +kernel⟩,
      ⟨1, "title".toList, '\'', "\" href=\"x\">y</a>".toList, .inr rfl, by simp, by decide,
        by decide +kernel⟩]
  room := 1
  text := " foo &amp; bar ".toList
  notMem_href := by decide
  lacksOpening_href := by decide +kernel
  text_ne_nil := by decide
  notMem_text := by decide

/-- A tag with nothing but a reference and a text. -/
def plainTag : Tag where
  href := "/simple/baz/".toList
  attributes := []
  room := 0
  text := "baz".toList
  notMem_href := by decide
  lacksOpening_href := by decide +kernel
  text_ne_nil := by decide
  notMem_text := by decide

/-- A page of two tags, the second of which ends behind the first thousand units. -/
def samplePage : Page where
  lead := ⟨"<html> \"> </a> <".toList, by decide +kernel⟩
  parts :=
    [(sampleTag, ⟨List.replicate 850 '\n', lacksOpening_of_notMem fun h ↦
        absurd (List.eq_of_mem_replicate h) (by decide)⟩),
      (plainTag, ⟨"</html>".toList, by decide +kernel⟩)]

/-- A world in which an index has this page. -/
def sampleIndex : World where
  fetch url :=
    if url = "https://pypi.example/simple/" then .ok (.string samplePage.text)
    else .error (.error "404 Not Found")
  warehouse := .answering []

theorem all_eq_map_anchor_samplePage :
    sampleIndex.fetch ("https://pypi.example/simple" ++ "/") = .ok (.string samplePage.text) ∧
      all samplePage.text = [sampleTag.anchor, plainTag.anchor] ∧
      (Discovery.run sampleIndex (.fullIndex "https://pypi.example/simple" true)).1 =
        .ok ["foo & bar"] := by
  have hpage : sampleIndex.fetch ("https://pypi.example/simple" ++ "/") =
      .ok (.string samplePage.text) := by
    have haddress : "https://pypi.example/simple" ++ "/" = "https://pypi.example/simple/" := by
      decide +kernel
    simp only [sampleIndex, haddress, if_true]
  have hnames : ((samplePage.tagsWithin 1000).filter fun t ↦ Text.trim t.text ≠ []).map
      (fun t ↦ t.anchor.text) = ["foo & bar"] := by decide +kernel
  obtain ⟨hall, -, hrun⟩ := all_eq_map_anchor samplePage
  exact ⟨hpage, hall, (hrun sampleIndex _ hpage).trans (congrArg Except.ok hnames)⟩

end IndexSnapshot.Anchor
