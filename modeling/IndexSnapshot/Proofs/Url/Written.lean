import IndexSnapshot.Proofs.Url.Owner
import IndexSnapshot.Proofs.Url.Path
import Mathlib.Data.List.Basic

/-!
# Written locators

A text is written when it is the form, without query and fragment, of the locator that it denotes.
For a file in a directory of the web this is a matter of the owner and of the directory, each for
itself, and not of the file's place in the directory (`cleaned?_fileText_iff`). A link to the file,
read against a page, leads to the file under the text of the link in just this case
(`exists_parse?_fileText_iff`).
-/

namespace IndexSnapshot.Url

variable {scheme owner path : List Char}

/-! ### Schemes of texts -/

/-- The scheme of a locator is the one that its text begins with. -/
theorem scheme_of_prefix {text : String} {url : Url} (h : parse? none text = some url)
    (hscheme : IsScheme scheme) (hfront : scheme ++ [':'] <+: text.toList) :
    url.scheme = Text.lower scheme := by
  obtain ⟨rest, hrest, -⟩ := exists_scheme_of_parse? h
  have hplain : ∀ c ∈ scheme ++ [':'], isPlain c = true := by
    intro c hc
    rcases List.mem_append.1 hc with hc | hc
    · exact isPlain_of_isSchemeChar (hscheme.forall_mem c hc)
    · rw [List.mem_singleton.1 hc]
      rfl
  obtain ⟨tail, htail⟩ := prefix_front hfront hplain
  rw [← htail, List.append_assoc, List.singleton_append, scheme?_append hscheme] at hrest
  exact (Prod.ext_iff.1 (Option.some.inj hrest)).1.symm

theorem prefix_chars (url : Url) : url.scheme ++ [':'] <+: url.chars := by
  simp [chars, List.append_assoc]

/-! ### Pages -/

/-- An owner ends at the first slash. -/
theorem pageChars_inj {owner' path' : List Char} (howner : ∀ c ∈ owner, isOwn c = true)
    (howner' : ∀ c ∈ owner', isOwn c = true) :
    pageChars scheme owner path = pageChars scheme owner' path' ↔
      owner = owner' ∧ path = path' := by
  have htake : ∀ {owner : List Char} (path : List Char), (∀ c ∈ owner, isOwn c = true) →
      (owner ++ '/' :: path).takeWhile (· ≠ '/') = owner := by
    intro owner path howner
    have hslash : ∀ c ∈ owner, decide (c ≠ '/') = true := fun c hc ↦ by
      have hc := howner c hc
      rw [isOwn, Bool.and_eq_true, Bool.and_eq_true] at hc
      exact hc.1.2
    rw [List.takeWhile_append_of_pos hslash, List.takeWhile_cons_of_neg (by decide),
      List.append_nil]
  constructor
  · intro h
    have h := (List.cons_eq_cons.1 (List.cons_eq_cons.1 (List.cons_eq_cons.1
      (List.append_cancel_left h)).2).2).2
    obtain rfl : owner = owner' := by
      rw [← htake path howner, h, htake path' howner']
    exact ⟨rfl, List.tail_eq_of_cons_eq (List.append_cancel_left h)⟩
  · rintro ⟨rfl, rfl⟩
    rfl

theorem getLast?_pageChars : (pageChars scheme owner path).getLast? = some '/' ↔
    path = [] ∨ path.getLast? = some '/' := by
  have happend : pageChars scheme owner path =
      (scheme ++ ':' :: '/' :: '/' :: owner) ++ '/' :: path := by
    simp [pageChars]
  rw [happend, List.getLast?_append_cons]
  cases path <;> simp

/-- A resolved path in its written form. -/
theorem exists_flatMap_resolve (hweb : isWebScheme scheme = true) (path : List Char) :
    ∃ written, ((Path.resolve scheme [] path).flatMap fun name ↦ '/' :: name) = '/' :: written ∧
      ∀ c ∈ written, isPlain c = true := by
  obtain ⟨name, names, hnames⟩ := List.exists_cons_of_ne_nil (Path.resolve_ne_nil hweb path)
  refine ⟨name ++ names.flatMap fun name ↦ '/' :: name, by rw [hnames]; rfl, fun c hc ↦ ?_⟩
  rcases List.mem_append.1 hc with hc | hc
  · exact Path.isPlain_of_mem_resolve hweb (hnames ▸ List.mem_cons_self) hc
  · obtain ⟨other, hother, hc⟩ := List.mem_flatMap.1 hc
    rcases List.mem_cons.1 hc with rfl | hc
    · rfl
    · exact Path.isPlain_of_mem_resolve hweb (hnames ▸ List.mem_cons_of_mem name hother) hc

/-- What a locator of a page is written as. -/
theorem href_page {a : Authority} (ha : IsOwner scheme a) {names : List (List Char)}
    (hpath : (names.flatMap fun name ↦ '/' :: name) = '/' :: path) :
    (page scheme a names).href = String.ofList (pageChars scheme a.chars path) := by
  obtain ⟨host, -, hhost⟩ := ha.exists_host
  rw [href, chars_page (by rw [hhost]; rfl) hpath]

/-- What a locator of the web is written as, without query and fragment. -/
theorem exists_href_eq {text : String} {url : Url} (h : parse? none text = some url)
    (hweb : url.isWeb = true) : ∃ owner path, IsOwnerText owner ∧ (∀ c ∈ path, isPlain c = true) ∧
      url.withoutSuffix.href = String.ofList (pageChars url.scheme owner path) := by
  obtain ⟨owner, path, howner, hpage⟩ := exists_page_of_parse? h hweb
  have hisOwner := isOwner_of_authority? (isSpecialScheme_of_isWebScheme hweb) howner
  obtain ⟨written, hwritten, hplain⟩ := exists_flatMap_resolve hweb path
  refine ⟨url.authority.chars, written, hisOwner.isOwnerText, hplain, ?_⟩
  rw [hpage, href_page hisOwner hwritten]

/-! ### Files in directories -/

section Directory

variable {directory place : List Char}

/-- The text of a locator, from its scheme, its owner, a directory and a place in it. -/
def fileText (scheme owner directory place : List Char) : String :=
  String.ofList (pageChars scheme owner (directory ++ place))

theorem fileText_inj {owner' directory' : List Char} (howner : IsOwnerText owner)
    (howner' : IsOwnerText owner') :
    fileText scheme owner directory place = fileText scheme owner' directory' place ↔
      owner = owner' ∧ directory = directory' := by
  rw [fileText, fileText, ← String.toList_inj, String.toList_ofList, String.toList_ofList,
    pageChars_inj howner.isOwn_of_mem howner'.isOwn_of_mem, List.append_left_inj]

theorem fileText_append (scheme owner directory : List Char) (place : String) :
    fileText scheme owner directory [] ++ place =
      fileText scheme owner directory place.toList := by
  rw [fileText, fileText, ← String.toList_inj, String.toList_append]
  simp [pageChars]

/-- **A file is read part by part**, against any base, and its place stays as it is. -/
theorem parse?_fileText (base : Option Url) (hweb : isWebScheme scheme = true)
    (howner : IsOwnerText owner) (hdirectory : Path.IsDirectory directory)
    (hplace : Path.IsPlace place) :
    ∃ names, parse? base (fileText scheme owner directory place) =
        (authority? scheme owner).map (page scheme · names) ∧
      ∀ a, authority? scheme owner = some a → (page scheme a names).href =
        fileText scheme a.chars (Path.directory directory) place := by
  have hpath : ∀ c ∈ directory ++ place, isPlain c = true := fun c hc ↦
    (List.mem_append.1 hc).elim (hdirectory.isPlain_of_mem c) (hplace.isPlain_of_mem c)
  refine ⟨_, parse?_page base hweb howner.ne_nil howner.isOwn_of_mem hpath, fun a ha ↦ ?_⟩
  exact href_page (isOwner_of_authority? (isSpecialScheme_of_isWebScheme hweb) ha)
    (Path.flatMap_resolve_append hweb hdirectory hplace)

theorem cleaned?_fileText (hweb : isWebScheme scheme = true) (howner : IsOwnerText owner)
    (hdirectory : Path.IsDirectory directory) (hplace : Path.IsPlace place) :
    cleaned? (fileText scheme owner directory place) = (authority? scheme owner).map fun a ↦
      fileText scheme a.chars (Path.directory directory) place := by
  obtain ⟨names, hparse, hhref⟩ := parse?_fileText none hweb howner hdirectory hplace
  rw [cleaned?, hparse, Option.map_map]
  cases ha : authority? scheme owner with
  | none => rfl
  | some a => exact congrArg some (hhref a ha)

/-- **A file is written when its owner and its directory are**, whatever its place. -/
theorem cleaned?_fileText_iff (hweb : isWebScheme scheme = true) (howner : IsOwnerText owner)
    (hdirectory : Path.IsDirectory directory) (hplace : Path.IsPlace place) :
    cleaned? (fileText scheme owner directory place) =
        some (fileText scheme owner directory place) ↔
      (∃ a, authority? scheme owner = some a ∧ a.chars = owner) ∧
        Path.directory directory = directory := by
  rw [cleaned?_fileText hweb howner hdirectory hplace]
  cases ha : authority? scheme owner with
  | none => simp
  | some a =>
    have hisOwner := isOwner_of_authority? (isSpecialScheme_of_isWebScheme hweb) ha
    simp only [Option.map_some, Option.some.injEq, exists_eq_left',
      fileText_inj hisOwner.isOwnerText howner]

/-- **A link leads to a file under the text of the link when that is written.** The text is read
against the page and what is read is written and read once more; if that gives the text back, so
does reading it alone. -/
theorem exists_parse?_fileText_iff (base : Option Url) (hweb : isWebScheme scheme = true)
    (howner : IsOwnerText owner) (hdirectory : Path.IsDirectory directory)
    (hplace : Path.IsPlace place) :
    (∃ url, parse? base (fileText scheme owner directory place) = some url ∧
        cleaned? url.href = some (fileText scheme owner directory place)) ↔
      cleaned? (fileText scheme owner directory place) =
        some (fileText scheme owner directory place) := by
  have hspecial := isSpecialScheme_of_isWebScheme hweb
  obtain ⟨names, hparse, hhref⟩ := parse?_fileText base hweb howner hdirectory hplace
  rw [hparse]
  constructor
  · rintro ⟨url, hurl, hcleaned⟩
    obtain ⟨a, ha, rfl⟩ := Option.map_eq_some_iff.1 hurl
    have hisOwner := isOwner_of_authority? hspecial ha
    rw [hhref a ha, cleaned?_fileText hweb hisOwner.isOwnerText
      (Path.isDirectory_directory directory) hplace] at hcleaned
    obtain ⟨b, hb, hsame⟩ := Option.map_eq_some_iff.1 hcleaned
    -- owner and directory come back after two rounds, hence after one
    obtain ⟨hchars, htwice⟩ :=
      (fileText_inj (isOwner_of_authority? hspecial hb).isOwnerText howner).1 hsame
    have hab : a = b := eq_of_authority?_chars hspecial hb (hchars ▸ ha)
    rw [cleaned?_fileText_iff hweb howner hdirectory hplace]
    exact ⟨⟨a, ha, hab ▸ hchars⟩, Path.directory_eq_of_directory htwice⟩
  · intro hcleaned
    obtain ⟨⟨a, ha, hchars⟩, hsame⟩ :=
      (cleaned?_fileText_iff hweb howner hdirectory hplace).1 hcleaned
    refine ⟨page scheme a names, by rw [ha]; rfl, ?_⟩
    rw [hhref a ha, hchars, hsame, hcleaned]

end Directory

end IndexSnapshot.Url
