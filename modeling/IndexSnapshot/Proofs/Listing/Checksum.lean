import IndexSnapshot.Listing.Page
import IndexSnapshot.Proofs.Listing.Reference
import IndexSnapshot.Proofs.Text.Entity
import IndexSnapshot.Proofs.Url.Cleaned

/-!
# Checksums

A checksum travels behind the `?` or the `#` of a reference. What is listed for the reference is
told by what stands before it alone (`artifact?_append`): the locator that the reference and the
page make up has its scheme, its owner and its path from there, and nothing else of it is left. So a
page lists the same files whatever its checksums are, and leads nowhere for one of them if it does
so for all (`artifacts?_of_tails`).
-/

namespace IndexSnapshot

namespace Anchor.Link

/-- The link with another value of the attribute with the name `href`. -/
def withHref (l : Link) (href : List Char) (hquote : '"' ∉ href) : Link :=
  { l with href := href, notMem_href := hquote }

/-- The value is the reference unless another attribute is taken for it. -/
theorem anchor_withHref (l : Link) (href : List Char) (hquote : '"' ∉ href) :
    (l.withHref href hquote).anchor (l.withHref href hquote).reference =
      l.anchor ((l.before.find? Field.refers).elim href Field.value) := rfl

end Anchor.Link

namespace Listing

open Anchor (Filler Link linksChars)
open Url (IsTail IsTight)

variable {pageUrl page page' : String} {base : Url} {stem tail tail' : List Char}

/-- A reference without its query and its fragment. -/
structure IsStem (stem : List Char) : Prop where
  notMem : ∀ c ∈ stem, c ≠ '#' ∧ c ≠ '?'
  isTight : IsTight stem

/-- **What is listed for a reference is told by its stem.** -/
theorem artifact?_append (hpage : Url.parse? none pageUrl = some base) (hweb : base.isWeb = true)
    (hstem : IsStem stem) (htail : IsTail tail) (text : String) :
    artifact? pageUrl ⟨String.ofList (stem ++ tail), text⟩ =
      ((Url.hierarchy? (some base) (Url.clean stem) false).bind fun read ↦
        Url.cleaned? (String.ofList read.1.chars)).map fun url ↦ ⟨url, text⟩ := by
  have hread := Url.bind_cleaned?_parse? (Url.isPage_of_parse? hpage hweb) hstem.notMem
    hstem.isTight htail
  calc artifact? pageUrl ⟨String.ofList (stem ++ tail), text⟩
      = (Url.parse? none pageUrl).bind fun base ↦
          (Url.parse? (some base) (String.ofList (stem ++ tail))).bind fun found ↦
            (Url.cleaned? found.href).bind fun url ↦ some ⟨url, text⟩ := rfl
    _ = ((Url.parse? (some base) (String.ofList (stem ++ tail))).bind fun found ↦
          Url.cleaned? found.href).map fun url ↦ ⟨url, text⟩ := by
        rw [hpage, Option.bind_some, Option.map_eq_bind, Option.bind_assoc]
        rfl
    _ = _ := by rw [hread]

theorem artifacts?_of_all (hpage : Url.parse? none pageUrl = some base) (hweb : base.isWeb = true)
    (hstem : IsStem stem) (htail : IsTail tail) (htail' : IsTail tail')
    {before behind : List Anchor} {text : String}
    (hall : Anchor.all page = before ++ ⟨String.ofList (stem ++ tail), text⟩ :: behind)
    (hall' : Anchor.all page' = before ++ ⟨String.ofList (stem ++ tail'), text⟩ :: behind) :
    artifacts? page pageUrl = artifacts? page' pageUrl := by
  rw [artifacts?, artifacts?, hall, hall', List.mapM_append, List.mapM_append, List.mapM_cons,
    List.mapM_cons, artifact?_append hpage hweb hstem htail,
    artifact?_append hpage hweb hstem htail']

/-- A page of links, one of which has a value of its own. -/
def pageText (lead : Filler) (before : List (Link × Filler)) (l : Link) (filler : Filler)
    (behind : List (Link × Filler)) : String :=
  String.ofList (lead ++ linksChars (before ++ (l, filler) :: behind))

theorem all_pageText (lead : Filler) (before : List (Link × Filler)) (l : Link) (filler : Filler)
    (behind : List (Link × Filler)) : Anchor.all (pageText lead before l filler behind) =
      (before.map fun (l, _) ↦ l.anchor l.reference) ++ l.anchor l.reference ::
        behind.map fun (l, _) ↦ l.anchor l.reference := by
  rw [pageText, Anchor.all_linksChars, List.map_append, List.map_cons]

/-- **Listings do not depend on checksums**: neither when an anchor of a page is given another one,
all other anchors being equal, nor, in particular, when another one is written into a page of
links. -/
theorem artifacts?_of_tails (hpage : Url.parse? none pageUrl = some base) (hweb : base.isWeb = true)
    (hstem : IsStem stem) (htail : IsTail tail) (htail' : IsTail tail') :
    (∀ (page page' : String) (before behind : List Anchor) (text : String),
      Anchor.all page = before ++ ⟨String.ofList (stem ++ tail), text⟩ :: behind →
      Anchor.all page' = before ++ ⟨String.ofList (stem ++ tail'), text⟩ :: behind →
      artifacts? page pageUrl = artifacts? page' pageUrl) ∧
    ∀ (lead filler : Filler) (before behind : List (Link × Filler)) (l : Link)
      (hquote : '"' ∉ stem ++ tail) (hquote' : '"' ∉ stem ++ tail'),
      '&' ∉ stem ++ tail → '&' ∉ stem ++ tail' →
      artifacts? (pageText lead before (l.withHref (stem ++ tail) hquote) filler behind) pageUrl =
        artifacts? (pageText lead before (l.withHref (stem ++ tail') hquote') filler behind)
          pageUrl := by
  have hanchors : ∀ (page page' : String) (before behind : List Anchor) (text : String),
      Anchor.all page = before ++ ⟨String.ofList (stem ++ tail), text⟩ :: behind →
      Anchor.all page' = before ++ ⟨String.ofList (stem ++ tail'), text⟩ :: behind →
      artifacts? page pageUrl = artifacts? page' pageUrl :=
    fun _ _ _ _ _ ↦ artifacts?_of_all hpage hweb hstem htail htail'
  refine ⟨hanchors, fun lead filler before behind l hquote hquote' hentity hentity' ↦ ?_⟩
  have hall := all_pageText lead before (l.withHref (stem ++ tail) hquote) filler behind
  have hall' := all_pageText lead before (l.withHref (stem ++ tail') hquote') filler behind
  rw [Link.anchor_withHref] at hall hall'
  rcases hfind : l.before.find? Anchor.Field.refers with _ | f
  · rw [hfind, Option.elim_none, Link.anchor, Text.decodeEntities_of_not_mem hentity] at hall
    rw [hfind, Option.elim_none, Link.anchor, Text.decodeEntities_of_not_mem hentity'] at hall'
    exact hanchors _ _ _ _ _ hall hall'
  · -- another attribute is taken for the reference, and it is the same on both pages
    rw [hfind, Option.elim_some] at hall hall'
    rw [artifacts?, artifacts?, hall, hall']

/-- The address of the page of a package. -/
def sampleUrl : String := "https://mirror.example/simple/foo/"

/-- The address in its parts. -/
def sampleBase : Url where
  scheme := "https".toList
  username := []
  password := []
  host := some (.domain "mirror.example".toList)
  port := none
  path := .segments ["simple".toList, "foo".toList, []]
  query := none
  fragment := none

/-- The link to a file, without a reference. -/
def sampleFile : Link where
  before := []
  href := []
  behind := []
  text := "foo-1.0.tar.gz".toList
  notMem_href := List.not_mem_nil
  text_ne_nil := by decide
  notMem_text := by decide

/-- The reference of the file without its checksum. -/
def sampleStem : List Char := "../../packages/aa/foo-1.0.tar.gz".toList

/-- A page with the link, a checksum in its reference. -/
def samplePage (tail : List Char) (hquote : '"' ∉ sampleStem ++ tail) : String :=
  pageText ⟨"<body>".toList, by decide +kernel⟩ [] (sampleFile.withHref (sampleStem ++ tail) hquote)
    ⟨"</body>".toList, by decide +kernel⟩ []

theorem artifacts?_of_tails_sampleStem :
    Url.parse? none sampleUrl = some sampleBase ∧ sampleBase.isWeb = true ∧ IsStem sampleStem ∧
      IsTail "#sha256=1".toList ∧ IsTail "?1#2".toList ∧
      artifacts? (samplePage "#sha256=1".toList (by decide)) sampleUrl =
        some [⟨"https://mirror.example/packages/aa/foo-1.0.tar.gz", "foo-1.0.tar.gz"⟩] ∧
      artifacts? (samplePage "?1#2".toList (by decide)) sampleUrl =
        some [⟨"https://mirror.example/packages/aa/foo-1.0.tar.gz", "foo-1.0.tar.gz"⟩] := by
  have hpage : Url.parse? none sampleUrl = some sampleBase := by decide +kernel
  have hstem : IsStem sampleStem := by
    have hall : (sampleStem.all fun c ↦ c ≠ '#' && c ≠ '?') = true := by decide
    refine ⟨fun c hc ↦ by simpa using List.all_eq_true.1 hall c hc, fun c hc ↦ ?_⟩
    obtain rfl : 'z' = c := Option.some.inj hc
    decide
  have hhash : IsTail "#sha256=1".toList := fun c hc ↦ .inr (Option.some.inj hc).symm
  have hmark : IsTail "?1#2".toList := fun c hc ↦ .inl (Option.some.inj hc).symm
  have hlisted : artifacts? (samplePage "#sha256=1".toList (by decide)) sampleUrl =
      some [⟨"https://mirror.example/packages/aa/foo-1.0.tar.gz", "foo-1.0.tar.gz"⟩] := by
    decide +kernel
  obtain ⟨-, hpages⟩ := artifacts?_of_tails hpage (by decide) hstem hhash hmark
  refine ⟨hpage, by decide, hstem, hhash, hmark, hlisted, ?_⟩
  rw [← hlisted]
  exact (hpages _ _ [] [] sampleFile _ _ (by decide) (by decide)).symm

end Listing

end IndexSnapshot
