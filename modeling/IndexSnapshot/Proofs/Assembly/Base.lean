import IndexSnapshot.Listing.Page
import IndexSnapshot.Proofs.Assembly.Inverse
import IndexSnapshot.Proofs.Config.Accepted
import IndexSnapshot.Proofs.Text.Entity
import IndexSnapshot.Proofs.Url.Written

/-!
# Bases in written form

The base of the files is checked as a locator but compared as a text, while the addresses of the
files on a page are the written forms of locators. A file that a page links to below the base is
therefore kept exactly when the base itself is a written form (`artifacts?_assemble_iff`).
-/

namespace IndexSnapshot.Assembly

open Text (decodeEntities_of_not_mem)

/-- Characters of places. -/
def isPlaceChar (c : Char) : Bool := c.isAlphanum || c = '.' || c = '_' || c = '-' || c = '/'

/-- A place below a base: names of letters, digits, points, underscores and hyphens between single
slashes, none of which stands for the directory it is in or for the one above. -/
def IsPlace (place : String) : Prop :=
  (∀ c ∈ place.toList, isPlaceChar c = true) ∧
    ∀ name ∈ Text.splitAtMarks (· = '/') place.toList, name ≠ [] ∧ name ≠ ['.'] ∧ name ≠ ['.', '.']

instance (place : String) : Decidable (IsPlace place) :=
  @instDecidableAnd _ _ (List.decidableBAll _ _) (List.decidableBAll _ _)

/-! ### Places -/

section IsPlace

variable {place : String}

theorem toNat_of_isPlace (h : IsPlace place) {c : Char} (hc : c ∈ place.toList) :
    45 ≤ c.toNat ∧ c.toNat ≤ 57 ∨ 65 ≤ c.toNat ∧ c.toNat ≤ 90 ∨ c.toNat = 95 ∨
      97 ≤ c.toNat ∧ c.toNat ≤ 122 := by
  have hkind := h.1 c hc
  simp only [isPlaceChar, Bool.or_eq_true, decide_eq_true_iff, Text.isAlphanum_iff,
    ← Char.toNat_inj, Char.reduceToNat] at hkind
  omega

theorem isPlain_of_isPlace (h : IsPlace place) : ∀ c ∈ place.toList, Url.isPlain c = true := by
  intro c hc
  have hnat := toNat_of_isPlace h hc
  rw [Url.isPlain_iff]
  omega

/-- A slash of either kind in a place is a forward one. -/
theorem isSlash_of_isPlace (h : IsPlace place) {c : Char} (hc : c ∈ place.toList) :
    Path.isSlash true c = decide (c = '/') := by
  have hnat := toNat_of_isPlace h hc
  have hback : c ≠ '\\' := by
    rintro rfl
    exact absurd hnat (by decide)
  simp [Path.isSlash, hback]

/-- **A place is resolved as it is.** -/
theorem isPlace_path_of_isPlace (h : IsPlace place) : Path.IsPlace place.toList where
  isPlain_of_mem := isPlain_of_isPlace h
  eq_of_isSlash c hc hslash := of_decide_eq_true (isSlash_of_isPlace h hc ▸ hslash)
  isName_of_mem := by
    intro name hname
    have hkept : ∀ c ∈ name, c ≠ '%' ∧ Percent.inPath c = false := by
      intro c hc
      have hnat := toNat_of_isPlace h (Text.of_mem_splitAtMarks hname hc).1
      simp only [Percent.inPath, Percent.inQuery, Percent.isControl, Bool.or_eq_false_iff,
        decide_eq_false_iff_not, ne_eq, ← Char.toNat_inj, Char.lt_def, UInt32.lt_iff_toNat_lt,
        Char.toNat_val, Char.reduceToNat]
      omega
    rw [Text.splitAtMarks_congr fun c ↦ isSlash_of_isPlace h] at hname
    obtain ⟨-, hsingle, hdouble⟩ := h.2 name hname
    exact Path.isName_of_forall hkept hsingle hdouble

end IsPlace

/-! ### Bases -/

section Base

variable {base : String} {url : Url}

theorem toList_withSlash (base : String) :
    (withSlash base).toList = base.toList ∨ (withSlash base).toList = base.toList ++ ['/'] := by
  unfold withSlash
  split
  · exact .inl rfl
  · exact .inr String.toList_append

/-- The slash at the end of a base does not touch its scheme. -/
theorem isWebScheme_of_prefix (hbase : Url.parse? none base = some url) (hweb : url.isWeb = true)
    {scheme : List Char} (hscheme : Url.IsScheme scheme) (hlower : Text.lower scheme = scheme)
    (hfront : scheme ++ [':'] <+: (withSlash base).toList) : Url.isWebScheme scheme = true := by
  have hbefore : scheme ++ [':'] <+: base.toList := by
    rcases toList_withSlash base with hsame | hslash
    · rwa [hsame] at hfront
    · rw [hslash] at hfront
      rcases List.prefix_concat_iff.1 hfront with heq | h
      · exact absurd (List.append_inj_right' heq rfl) (by decide)
      · exact h
  rw [← hlower, ← Url.scheme_of_prefix hbase hscheme hbefore]
  exact hweb

/-- Slashes alone do not make an owner. -/
theorem parse?_slashes {scheme : List Char} (hscheme : Url.isWebScheme scheme = true) {n : ℕ}
    (hn : n ≤ 2) :
    Url.parse? none (String.ofList (scheme ++ ':' :: List.replicate n '/')) = none := by
  rcases Url.isWebScheme_iff.1 hscheme with rfl | rfl <;> interval_cases n <;> decide

theorem withSlash_ne_slashes (hbase : Url.parse? none base = some url) {scheme : List Char}
    (hscheme : Url.isWebScheme scheme = true) {n : ℕ} (hn : n ≤ 2) :
    (withSlash base).toList ≠ scheme ++ ':' :: List.replicate n '/' := by
  have hne : ∀ m ≤ 2, base.toList ≠ scheme ++ ':' :: List.replicate m '/' := by
    intro m hm heq
    rw [← String.ofList_toList (s := base), heq, parse?_slashes hscheme hm] at hbase
    cases hbase
  rcases toList_withSlash base with hsame | hslash
  · rw [hsame]
    exact hne n hn
  · rw [hslash]
    cases n with
    | zero => exact fun heq ↦ absurd (List.append_inj_right' heq rfl) (by decide)
    | succ m =>
      rw [List.replicate_succ', ← List.cons_append, ← List.append_assoc]
      exact fun heq ↦ hne m (by omega) (List.append_cancel_right heq)

/-- **An accepted base reaches beyond its owner.** -/
theorem not_withSlash_prefix (hbase : Url.parse? none base = some url) {scheme owner : List Char}
    (hscheme : Url.isWebScheme scheme = true) (howner : ∀ c ∈ owner, Url.isOwn c = true)
    (hfront : scheme ++ [':'] <+: (withSlash base).toList) :
    ¬ (withSlash base).toList <+: scheme ++ ':' :: '/' :: '/' :: owner := by
  rintro ⟨more, hmore⟩
  obtain ⟨rest, hrest⟩ := hfront
  have hbaseText : (withSlash base).toList = scheme ++ ':' :: rest := by
    rw [← hrest, List.append_assoc, List.singleton_append]
  have hlast := getLast?_withSlash base
  rw [hbaseText, List.getLast?_append_cons] at hlast
  rw [hbaseText, List.append_assoc, List.cons_append] at hmore
  have hmore := List.tail_eq_of_cons_eq (List.append_cancel_left hmore)
  have hne : ∀ n ≤ 2, rest ≠ List.replicate n '/' := fun n hn heq ↦
    withSlash_ne_slashes hbase hscheme hn (by rw [hbaseText, heq])
  match rest with
  | [] => exact hne 0 (by omega) rfl
  | [c] =>
    obtain ⟨rfl, -⟩ := List.cons_eq_cons.1 hmore
    exact hne 1 (by omega) rfl
  | [c, d] =>
    obtain ⟨rfl, htail⟩ := List.cons_eq_cons.1 hmore
    obtain ⟨rfl, -⟩ := List.cons_eq_cons.1 htail
    exact hne 2 (by omega) rfl
  | c :: d :: e :: tail =>
    -- the slash at the end would be one of the owner
    have hslash : '/' ∈ e :: tail := by
      rw [List.getLast?_cons_cons, List.getLast?_cons_cons, List.getLast?_cons_cons] at hlast
      exact List.mem_of_getLast? hlast
    have howned : owner = e :: tail ++ more :=
      (List.tail_eq_of_cons_eq (List.tail_eq_of_cons_eq hmore)).symm
    exact absurd (howner '/' (howned ▸ List.mem_append_left more hslash)) (by decide)

/-- **A base in front of the written form of a locator is a directory.** -/
theorem exists_fileText (hbase : Url.parse? none base = some url) (hweb : url.isWeb = true)
    {text : String} {found : Url} (hfound : Url.parse? none text = some found) {place : String}
    (hhref : found.withoutSuffix.href = withSlash base ++ place) :
    ∃ scheme owner directory, Url.isWebScheme scheme = true ∧ Url.IsOwnerText owner ∧
      Path.IsDirectory directory ∧ withSlash base = Url.fileText scheme owner directory [] := by
  have hchars : found.withoutSuffix.chars = (withSlash base).toList ++ place.toList := by
    rw [← String.toList_append, ← hhref, Url.href, String.toList_ofList]
  obtain ⟨written, hwritten, hlower⟩ : ∃ written, Url.IsScheme written ∧
      found.scheme = Text.lower written := by
    obtain ⟨rest, hrest, -⟩ := Url.exists_scheme_of_parse? hfound
    obtain ⟨written, hwritten, -, hlower⟩ := Url.eq_append_of_scheme? hrest
    exact ⟨written, hwritten, hlower⟩
  have hisScheme : Url.IsScheme found.scheme := hlower ▸ Url.isScheme_lower hwritten
  -- the base ends in a slash, and so not within the scheme of the locator or at its colon
  have hfront : found.scheme ++ [':'] <+: (withSlash base).toList := by
    have hall : found.scheme ++ [':'] <+: (withSlash base).toList ++ place.toList :=
      hchars ▸ found.withoutSuffix.prefix_chars
    rcases List.prefix_or_prefix_of_prefix hall (List.prefix_append _ _) with h | h
    · exact h
    · have hslash := h.subset (List.mem_of_getLast? (getLast?_withSlash base))
      rcases List.mem_append.1 hslash with hslash | hslash
      · exact absurd (hisScheme.forall_mem _ hslash) (by decide)
      · exact absurd hslash (by decide)
  have hscheme : Url.isWebScheme found.scheme = true :=
    isWebScheme_of_prefix hbase hweb hisScheme (by rw [hlower, Text.lower_lower]) hfront
  obtain ⟨owner, path, howner, hpath, hpage⟩ := Url.exists_href_eq hfound hscheme
  have hbeyond := not_withSlash_prefix hbase hscheme howner.isOwn_of_mem hfront
  -- the base reaches beyond the owner, so that the rest of it is a directory
  have heq : (withSlash base).toList ++ place.toList =
      (found.scheme ++ ':' :: '/' :: '/' :: owner) ++ '/' :: path := by
    rw [← String.toList_append, ← hhref, hpage, String.toList_ofList]
    simp [Url.pageChars]
  rcases List.append_eq_append_iff.1 heq with ⟨more, hmore, -⟩ | ⟨rest, hrest, hplace⟩
  · exact absurd ⟨more, hmore.symm⟩ hbeyond
  · cases rest with
    | nil => exact absurd ⟨[], by rw [hrest]; simp⟩ hbeyond
    | cons c directory =>
      rw [List.cons_append] at hplace
      obtain ⟨rfl, rfl⟩ := List.cons_eq_cons.1 hplace
      have hbaseText : (withSlash base).toList = Url.pageChars found.scheme owner directory := by
        rw [hrest]
        simp [Url.pageChars]
      have hends := getLast?_withSlash base
      rw [hbaseText, Url.getLast?_pageChars] at hends
      refine ⟨found.scheme, owner, directory, hscheme, howner,
        ⟨fun c hc ↦ hpath c (List.mem_append_left _ hc), hends⟩, ?_⟩
      rw [Url.fileText, List.append_nil, ← hbaseText, String.ofList_toList]

/-- **A file below an accepted base is reached under its text when the base is written.** -/
theorem exists_parse?_append_iff (hbase : Url.parse? none base = some url) (hweb : url.isWeb = true)
    {place : String} (hplace : IsPlace place) (pageLocator : Option Url) :
    (∃ found, Url.parse? pageLocator (withSlash base ++ place) = some found ∧
        Url.cleaned? found.href = some (withSlash base ++ place)) ↔
      Url.cleaned? (withSlash base) = some (withSlash base) := by
  -- either side tells that the base is a directory, and of directories both sides say the same
  have hiff : ∀ {scheme owner directory : List Char}, Url.isWebScheme scheme = true →
      Url.IsOwnerText owner → Path.IsDirectory directory →
      withSlash base = Url.fileText scheme owner directory [] →
      ((∃ found, Url.parse? pageLocator (withSlash base ++ place) = some found ∧
          Url.cleaned? found.href = some (withSlash base ++ place)) ↔
        Url.cleaned? (withSlash base) = some (withSlash base)) := by
    intro scheme owner directory hscheme howner hdirectory heq
    have hplace := isPlace_path_of_isPlace hplace
    rw [heq, Url.fileText_append,
      Url.exists_parse?_fileText_iff pageLocator hscheme howner hdirectory hplace,
      Url.cleaned?_fileText_iff hscheme howner hdirectory hplace,
      Url.cleaned?_fileText_iff hscheme howner hdirectory Path.isPlace_nil]
  constructor
  · intro h
    obtain ⟨_, _, hcleaned⟩ := id h
    obtain ⟨found, hfound, hhref⟩ := Option.map_eq_some_iff.1 hcleaned
    obtain ⟨scheme, owner, directory, hscheme, howner, hdirectory, heq⟩ :=
      exists_fileText hbase hweb hfound hhref
    exact (hiff hscheme howner hdirectory heq).1 h
  · intro h
    obtain ⟨found, hfound, hhref⟩ := Option.map_eq_some_iff.1 h
    rw [← String.append_empty (s := withSlash base)] at hhref
    obtain ⟨scheme, owner, directory, hscheme, howner, hdirectory, heq⟩ :=
      exists_fileText hbase hweb hfound hhref
    exact (hiff hscheme howner hdirectory heq).2 h

end Base

/-! ### Links -/

/-- Slashes and places bring no ampersand into an address. -/
theorem not_mem_append {base place : String} (hbase : '&' ∉ base.toList) (hplace : IsPlace place) :
    '&' ∉ (withSlash base ++ place).toList := by
  rw [String.toList_append, List.mem_append, not_or]
  constructor
  · rcases toList_withSlash base with hsame | hslash
    · rwa [hsame]
    · rw [hslash, List.mem_append, not_or]
      exact ⟨hbase, by decide⟩
  · exact fun h ↦ absurd (toNat_of_isPlace hplace h) (by decide)

/-- A link is read against the page, and what is read is written and cleaned. -/
theorem artifact?_eq (pageUrl : String) (anchor : Anchor) : Listing.artifact? pageUrl anchor =
    (Url.parse? none pageUrl).bind fun pageLocator ↦
      (Url.parse? (some pageLocator) anchor.href).bind fun found ↦
        (Url.cleaned? found.href).bind fun address ↦ some ⟨address, anchor.text⟩ := rfl

/-- A page with a single link lists one file, if the link leads anywhere. -/
theorem artifacts?_of_scan {page pageUrl : String} {href text : List Char}
    (hpage : Anchor.scan page.toList = [(href, text)]) :
    Listing.artifacts? page pageUrl =
      (Listing.artifact? pageUrl (.ofWritten href text)).map fun file ↦ [file] := by
  rw [Listing.artifacts?, Anchor.all, hpage]
  cases h : Listing.artifact? pageUrl (.ofWritten href text) <;> simp [h]

/-- A file is kept under a place when its address is the base with the place behind it. -/
theorem assemble_singleton_iff {file : Artifact} {base place : String} :
    assemble [[file]] base = ([place], []) ↔ file.url = withSlash base ++ place := by
  rw [← place?_eq_some_iff]
  cases hplace : place? (withSlash base) file.url with
  | none => simp [assemble, addresses, entries, outside, hplace]
  | some found => simp [assemble, addresses, entries, outside, hplace]

/-- **Files below a base are kept exactly if the base is written**, each under its place, and there
is nothing to say about them. -/
theorem artifacts?_assemble_iff {s : Settings} {changes : Settings.Changes} {env : Environment}
    {config : Config} (hconfig : Config.resolve s changes env = .ok config)
    (hbase : '&' ∉ config.packageBase.toList) {place : String} (hplace : IsPlace place)
    {pageUrl page : String} {pageLocator : Url}
    (hpageUrl : Url.parse? none pageUrl = some pageLocator) {text : List Char}
    (hpage : Anchor.scan page.toList =
      [((withSlash config.packageBase ++ place).toList, text)]) :
    (Listing.artifacts? page pageUrl).map (fun found ↦ assemble [found] config.packageBase) =
        some ([place], []) ↔
      Url.cleaned? (withSlash config.packageBase) = some (withSlash config.packageBase) := by
  obtain ⟨url, hurl, hweb⟩ := (Config.accepted_of_ofSettings hconfig).exists_packageBase
  have hhref : (Anchor.ofWritten (withSlash config.packageBase ++ place).toList text).href =
      withSlash config.packageBase ++ place := by
    rw [Anchor.ofWritten, decodeEntities_of_not_mem (not_mem_append hbase hplace),
      String.ofList_toList]
  rw [artifacts?_of_scan hpage, artifact?_eq, hpageUrl, Option.bind_some, hhref,
    ← exists_parse?_append_iff hurl hweb hplace (some pageLocator)]
  simp [assemble_singleton_iff, Option.bind_eq_some_iff]

/-- Settings of an index whose files are stored below a base. -/
def mirrorSettings (packageBase : String) : Settings :=
  { Settings.defaults with simpleBase := "https://mirror.example/simple", packageBase }

/-- The configuration of these settings. -/
def mirrorConfig (packageBase : String) : Config where
  simpleBase := "https://mirror.example/simple"
  packageBase := packageBase
  strategy := .fullIndex "https://mirror.example/simple" false
  retention := none
  concurrentResolve := 64
  requestTimeout := 30000

/-- The page of a package that links to one file. -/
def pageWithLink (href : String) : String := "<a href=\"" ++ href ++ "\">foo-1.0.tar.gz</a>"

theorem resolve_mirrorSettings {packageBase : String}
    (h : (Config.resolve (mirrorSettings packageBase) [] (.ofList [])).toOption =
      some (mirrorConfig packageBase)) :
    Config.resolve (mirrorSettings packageBase) [] (.ofList []) =
      .ok (mirrorConfig packageBase) :=
  Config.eq_ok_of_toOption h

theorem artifacts?_assemble_mirror :
    Config.resolve (mirrorSettings "https://mirror.example/packages") [] (.ofList []) =
        .ok (mirrorConfig "https://mirror.example/packages") ∧
      (Listing.artifacts? (pageWithLink "https://mirror.example/packages/aa/foo-1.0.tar.gz")
        "https://mirror.example/simple/foo/").map
          (fun found ↦ assemble [found] "https://mirror.example/packages") =
        some (["aa/foo-1.0.tar.gz"], []) := by
  have hconfig : Config.resolve (mirrorSettings "https://mirror.example/packages") []
      (.ofList []) = .ok (mirrorConfig "https://mirror.example/packages") :=
    resolve_mirrorSettings (by decide +kernel)
  refine ⟨hconfig, ?_⟩
  have hpageUrl : (Url.parse? none "https://mirror.example/simple/foo/").isSome = true := by
    decide +kernel
  have hpage : Anchor.scan
      (pageWithLink "https://mirror.example/packages/aa/foo-1.0.tar.gz").toList =
        [((withSlash "https://mirror.example/packages" ++ "aa/foo-1.0.tar.gz").toList,
          "foo-1.0.tar.gz".toList)] := by
    decide +kernel
  exact (artifacts?_assemble_iff hconfig (by decide) (by decide +kernel)
    (Option.some_get hpageUrl).symm hpage).2 (by decide +kernel)

/-- **A base with a capital in its host** passes the check of the settings, but the file that is
stored below it is left out. -/
theorem artifacts?_assemble_capital :
    Config.resolve (mirrorSettings "https://Mirror.example/packages") [] (.ofList []) =
        .ok (mirrorConfig "https://Mirror.example/packages") ∧
      '&' ∉ "https://Mirror.example/packages".toList ∧ IsPlace "aa/foo-1.0.tar.gz" ∧
      (Url.parse? none "https://mirror.example/simple/foo/").map Url.isWeb = some true ∧
      Anchor.scan (pageWithLink "https://Mirror.example/packages/aa/foo-1.0.tar.gz").toList =
        [("https://Mirror.example/packages/aa/foo-1.0.tar.gz".toList, "foo-1.0.tar.gz".toList)] ∧
      (Listing.artifacts? (pageWithLink "https://Mirror.example/packages/aa/foo-1.0.tar.gz")
        "https://mirror.example/simple/foo/").map
          (fun found ↦ assemble [found] "https://Mirror.example/packages") =
        some ([], [.outsideBase "https://mirror.example/packages/aa/foo-1.0.tar.gz"
          "https://Mirror.example/packages/"]) :=
  ⟨resolve_mirrorSettings (by decide +kernel), by decide, by decide +kernel, by decide +kernel,
    by decide +kernel, by decide +kernel⟩

end IndexSnapshot.Assembly
