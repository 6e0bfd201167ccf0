import IndexSnapshot.Proofs.Text.Split
import IndexSnapshot.Proofs.Url.Characters

/-!
# Reading locators of web pages

A text of the shape `scheme://owner/path`, with a scheme of the web and plain characters, is read
part by part, and a base has no part in it (`parse?_page`). The other way round, a locator of the
web that was read is written in this shape, up to its query and fragment (`exists_page_of_parse?`),
and its scheme is the one that its text begins with.
-/

namespace IndexSnapshot.Url

/-! ### Schemes -/

theorem isWebScheme_iff {scheme : List Char} :
    isWebScheme scheme = true ↔ scheme = "http".toList ∨ scheme = "https".toList := by
  rw [isWebScheme, Bool.or_eq_true, decide_eq_true_iff, decide_eq_true_iff]

theorem isSpecialScheme_of_isWebScheme {scheme : List Char} (h : isWebScheme scheme = true) :
    isSpecialScheme scheme = true := by
  rcases isWebScheme_iff.1 h with rfl | rfl <;> decide

theorem isFileScheme_of_isWebScheme {scheme : List Char} (h : isWebScheme scheme = true) :
    isFileScheme scheme = false := by
  rcases isWebScheme_iff.1 h with rfl | rfl <;> decide

/-- A scheme as it is written: a letter first, and then characters of schemes. -/
structure IsScheme (cs : List Char) : Prop where
  head : ∃ first rest, cs = first :: rest ∧ first.isAlpha = true
  forall_mem : ∀ c ∈ cs, isSchemeChar c = true

theorem isScheme_of_isWebScheme {scheme : List Char} (h : isWebScheme scheme = true) :
    IsScheme scheme := by
  rcases isWebScheme_iff.1 h with rfl | rfl
  · exact ⟨⟨'h', _, rfl, rfl⟩, List.all_eq_true.1 (by decide)⟩
  · exact ⟨⟨'h', _, rfl, rfl⟩, List.all_eq_true.1 (by decide)⟩

/-- A scheme in small letters is a scheme still. -/
theorem isScheme_lower {cs : List Char} (h : IsScheme cs) : IsScheme (Text.lower cs) := by
  obtain ⟨⟨first, rest, rfl, hfirst⟩, hall⟩ := h
  refine ⟨⟨first.toLower, Text.lower rest, rfl, ?_⟩, fun c hc ↦ ?_⟩
  · rw [Text.isAlpha_iff, Text.toNat_toLower] at *
    split_ifs <;> omega
  · obtain ⟨d, hd, rfl⟩ := List.mem_map.1 hc
    have hd := hall d hd
    simp only [isSchemeChar, Bool.or_eq_true, decide_eq_true_iff, Text.isAlphanum_iff,
      ← Char.toNat_inj, Char.reduceToNat, Text.toNat_toLower] at hd ⊢
    split_ifs <;> omega

theorem lower_of_isWebScheme {scheme : List Char} (h : isWebScheme scheme = true) :
    Text.lower scheme = scheme := by
  rcases isWebScheme_iff.1 h with rfl | rfl <;> rfl

theorem isPlain_of_isSchemeChar {c : Char} (h : isSchemeChar c = true) : isPlain c = true := by
  simp only [isSchemeChar, Bool.or_eq_true, decide_eq_true_iff] at h
  rcases h with ((h | rfl) | rfl) | rfl
  · exact isPlain_of_isOwn (isOwn_of_isAlphanum h)
  · rfl
  · rfl
  · rfl

theorem scheme?_append {scheme : List Char} (h : IsScheme scheme) (rest : List Char) :
    scheme? (scheme ++ ':' :: rest) = some (Text.lower scheme, rest) := by
  obtain ⟨⟨first, tail, rfl, hfirst⟩, hall⟩ := h
  have hdrop : (first :: tail ++ ':' :: rest).dropWhile isSchemeChar = ':' :: rest := by
    rw [List.dropWhile_append_of_pos hall, List.dropWhile_cons_of_neg (by decide)]
  have htake : (first :: tail ++ ':' :: rest).takeWhile isSchemeChar = first :: tail := by
    rw [List.takeWhile_append_of_pos hall, List.takeWhile_cons_of_neg (by decide), List.append_nil]
  rw [List.cons_append] at hdrop htake ⊢
  simp only [scheme?, hfirst, if_true, hdrop, htake]

theorem eq_append_of_scheme? {cs scheme rest : List Char} (h : scheme? cs = some (scheme, rest)) :
    ∃ written, IsScheme written ∧ cs = written ++ ':' :: rest ∧ scheme = Text.lower written := by
  unfold scheme? at h
  split at h
  · rename_i first tail
    split at h
    · rename_i hfirst
      split at h
      · rename_i rest' hdrop
        cases h
        have hcs := List.takeWhile_append_dropWhile (p := isSchemeChar) (l := first :: tail)
        rw [hdrop] at hcs
        refine ⟨_, ⟨?_, fun c hc ↦ ?_⟩, hcs.symm, rfl⟩
        · have hkept : isSchemeChar first = true := by
            simp [isSchemeChar, Char.isAlphanum, hfirst]
          exact ⟨first, _, List.takeWhile_cons_of_pos hkept, hfirst⟩
        · exact List.mem_takeWhile_imp hc
      · cases h
    · cases h
  · cases h

/-! ### Texts without blanks -/

theorem dropWhile_blank_of_forall {cs : List Char} (h : ∀ c ∈ cs, ' ' < c) :
    cs.dropWhile (· ≤ ' ') = cs := by
  cases cs with
  | nil => rfl
  | cons c cs => exact List.dropWhile_cons_of_neg (by simpa using h c List.mem_cons_self)

/-- What stands at the front of a text and has no blanks stays there. -/
theorem prefix_clean {pre cs : List Char} (h : pre <+: cs) (hpre : ∀ c ∈ pre, ' ' < c) :
    pre <+: clean cs := by
  obtain ⟨rest, rfl⟩ := h
  have hfilter : pre.filter (fun c ↦ c ≠ '\t' && c ≠ '\n' && c ≠ '\r') = pre := by
    refine List.filter_eq_self.2 fun c hc ↦ ?_
    have hlt : 32 < c.toNat := hpre c hc
    simp only [← Char.toNat_inj, Char.reduceToNat, ne_eq, Bool.and_eq_true, decide_not,
      Bool.not_eq_true', decide_eq_false_iff_not]
    omega
  have hfront : ∃ rest', (pre ++ rest).dropWhile (· ≤ ' ') = pre ++ rest' := by
    cases pre with
    | nil => exact ⟨_, rfl⟩
    | cons c pre =>
      have hc : ¬ c ≤ ' ' := by simpa using hpre c List.mem_cons_self
      exact ⟨rest, List.dropWhile_cons_of_neg (by simpa using hc)⟩
  -- blanks are taken off the end up to the front at most
  have hback : ∀ rest, ∃ rest',
      ((pre ++ rest).reverse.dropWhile (· ≤ ' ')).reverse = pre ++ rest' := by
    intro rest
    have hreverse := dropWhile_blank_of_forall fun c hc ↦ hpre c (List.mem_reverse.1 hc)
    rw [List.reverse_append, List.dropWhile_append, hreverse]
    split
    · exact ⟨[], by simp⟩
    · exact ⟨_, by rw [List.reverse_append, List.reverse_reverse]⟩
  obtain ⟨middle, hmiddle⟩ := hfront
  obtain ⟨tail, htail⟩ := hback middle
  show pre <+: (((pre ++ rest).dropWhile _).reverse.dropWhile _).reverse.filter _
  rw [hmiddle, htail, List.filter_append, hfilter]
  exact List.prefix_append _ _

theorem clean_sublist (cs : List Char) : (clean cs).Sublist cs := by
  have hedges := (List.dropWhile_sublist (l := (cs.dropWhile (· ≤ ' ')).reverse)
    (· ≤ ' ')).reverse
  rw [List.reverse_reverse] at hedges
  exact List.filter_sublist.trans (hedges.trans (List.dropWhile_sublist _))

theorem clean_of_forall {cs : List Char} (h : ∀ c ∈ cs, ' ' < c) : clean cs = cs :=
  ((prefix_clean List.prefix_rfl h).eq_of_length_le (clean_sublist cs).length_le).symm

/-- Nothing is cut off a plain text. -/
theorem cut_of_isPlain {cs : List Char} (h : ∀ c ∈ cs, isPlain c = true) :
    Text.cutAt (· = '#') (clean cs) = (cs, none) ∧ Text.cutAt (· = '?') cs = (cs, none) := by
  have hplain : ∀ c ∈ cs, ' ' < c ∧ c ≠ '#' ∧ c ≠ '?' := fun c hc ↦ of_isPlain (h c hc)
  rw [clean_of_forall fun c hc ↦ (hplain c hc).1]
  exact ⟨Text.cutAt_of_forall fun c hc ↦ decide_eq_false (hplain c hc).2.1,
    Text.cutAt_of_forall fun c hc ↦ decide_eq_false (hplain c hc).2.2⟩

/-! ### Locators of pages -/

/-- The locator of a page, from its scheme, its owner and the segments of its path. -/
def page (scheme : List Char) (a : Authority) (names : List (List Char)) : Url where
  scheme := scheme
  username := a.username
  password := a.password
  host := a.host
  port := a.port
  path := .segments names
  query := none
  fragment := none

/-- An owner in its written form: user information, host and port. -/
def Authority.chars (a : Authority) : List Char :=
  let url := page [] a []
  url.userinfoChars ++ url.host.elim [] Host.text ++ url.portChars

/-- The text of a page's locator, from its scheme, its owner and what follows the first slash. -/
def pageChars (scheme owner path : List Char) : List Char :=
  scheme ++ ':' :: '/' :: '/' :: (owner ++ '/' :: path)

/-- A locator is written by its parts. -/
theorem chars_page {scheme : List Char} {a : Authority} {names : List (List Char)}
    {path : List Char} (hhost : a.host.isSome = true)
    (hpath : (names.flatMap fun name ↦ '/' :: name) = '/' :: path) :
    (page scheme a names).chars = pageChars scheme a.chars path := by
  obtain ⟨host, hhost⟩ := Option.isSome_iff_exists.1 hhost
  simp [Url.chars, page, pageChars, Authority.chars, userinfoChars, portChars, pathChars, hhost,
    hpath, List.append_assoc]

theorem isSlash_of_isOwn {special : Bool} {c : Char} (h : isOwn c = true) :
    Path.isSlash special c = false := by
  have hslashes := (isOwn_iff.1 h).2
  simp only [Path.isSlash, ← Char.toNat_inj, Char.reduceToNat, Bool.or_eq_false_iff,
    Bool.and_eq_false_iff, decide_eq_false_iff_not]
  exact ⟨hslashes.1, .inr hslashes.2⟩

theorem skipSlashes_owner {owner : List Char} (hne : owner ≠ [])
    (howner : ∀ c ∈ owner, isOwn c = true) (rest : List Char) :
    skipSlashes ('/' :: '/' :: (owner ++ rest)) = owner ++ rest := by
  obtain ⟨c, owner, rfl⟩ := List.exists_cons_of_ne_nil hne
  have hc : Path.isSlash true c = false := isSlash_of_isOwn (howner c List.mem_cons_self)
  rw [skipSlashes, List.dropWhile_cons_of_pos rfl, List.dropWhile_cons_of_pos rfl, List.cons_append,
    List.dropWhile_cons_of_neg (by simp [hc])]

/-- The owner ends at the first slash. -/
theorem owned?_append {scheme owner : List Char} (hweb : isWebScheme scheme = true)
    (howner : ∀ c ∈ owner, isOwn c = true) (path : List Char) :
    owned? scheme (owner ++ '/' :: path) = (authority? scheme owner).map fun a ↦
      ⟨scheme, a, .segments (Path.resolve scheme [] path)⟩ := by
  have hown : ∀ c ∈ owner, (!Path.isSlash true c) = true := fun c hc ↦ by
    rw [isSlash_of_isOwn (howner c hc)]
    rfl
  rw [owned?, isSpecialScheme_of_isWebScheme hweb]
  dsimp only
  rw [List.takeWhile_append_of_pos hown, List.dropWhile_append_of_pos hown,
    List.takeWhile_cons_of_neg (by decide), List.dropWhile_cons_of_neg (by decide),
    List.append_nil]
  cases authority? scheme owner <;> rfl

/-- A locator of the web is read part by part, alone or against any base, if its owner and the path
behind it come apart. -/
theorem parse?_of_owned? (base : Option Url) {scheme owner behind : List Char}
    {names : List (List Char)} (hweb : isWebScheme scheme = true) (hne : owner ≠ [])
    (howner : ∀ c ∈ owner, isOwn c = true) (hbehind : ∀ c ∈ behind, isPlain c = true)
    (howned : owned? scheme (owner ++ behind) =
      (authority? scheme owner).map fun a ↦ ⟨scheme, a, .segments names⟩) :
    parse? base (String.ofList (scheme ++ ':' :: '/' :: '/' :: (owner ++ behind))) =
      (authority? scheme owner).map fun a ↦ page scheme a names := by
  have hplain : ∀ c ∈ scheme ++ ':' :: '/' :: '/' :: (owner ++ behind), isPlain c = true := by
    intro c hc
    simp only [List.mem_append, List.mem_cons] at hc
    rcases hc with hc | rfl | rfl | rfl | hc | hc
    · exact isPlain_of_isSchemeChar ((isScheme_of_isWebScheme hweb).forall_mem c hc)
    · rfl
    · rfl
    · rfl
    · exact isPlain_of_isOwn (howner c hc)
    · exact hbehind c hc
  obtain ⟨hfragment, hquery⟩ := cut_of_isPlain hplain
  have hhierarchy : hierarchy? base (scheme ++ ':' :: '/' :: '/' :: (owner ++ behind)) false =
      (authority? scheme owner).map fun a ↦ (⟨scheme, a, .segments names⟩, false) := by
    rw [hierarchy?, scheme?_append (isScheme_of_isWebScheme hweb), lower_of_isWebScheme hweb]
    simp only [absolute?, isFileScheme_of_isWebScheme hweb, isSpecialScheme_of_isWebScheme hweb,
      skipSlashes_owner hne howner, howned]
    cases base <;> simp [Function.comp_def]
  rw [parse?, String.toList_ofList, hfragment]
  simp only [hquery, Option.isSome_none, hhierarchy]
  cases authority? scheme owner <;> rfl

/-- **A written locator of a page is read part by part**, alone or against any base. -/
theorem parse?_page (base : Option Url) {scheme owner path : List Char}
    (hweb : isWebScheme scheme = true) (hne : owner ≠ [])
    (howner : ∀ c ∈ owner, isOwn c = true) (hpath : ∀ c ∈ path, isPlain c = true) :
    parse? base (String.ofList (pageChars scheme owner path)) =
      (authority? scheme owner).map fun a ↦ page scheme a (Path.resolve scheme [] path) :=
  parse?_of_owned? base hweb hne howner (List.forall_mem_cons.2 ⟨rfl, hpath⟩)
    (owned?_append hweb howner path)

/-- An owner with no path behind it is read as that of a page at the root. -/
theorem parse?_owner (base : Option Url) {scheme owner : List Char}
    (hweb : isWebScheme scheme = true) (hne : owner ≠ []) (howner : ∀ c ∈ owner, isOwn c = true) :
    parse? base (String.ofList (scheme ++ ':' :: '/' :: '/' :: owner)) =
      (authority? scheme owner).map fun a ↦ page scheme a (Path.resolve scheme [] []) := by
  have howned : owned? scheme (owner ++ []) = (authority? scheme owner).map fun a ↦
      ⟨scheme, a, .segments (Path.resolve scheme [] [])⟩ := by
    have hown : ∀ c ∈ owner, (!Path.isSlash true c) = true := fun c hc ↦ by
      rw [isSlash_of_isOwn (howner c hc)]
      rfl
    rw [owned?, isSpecialScheme_of_isWebScheme hweb]
    dsimp only
    rw [List.takeWhile_append_of_pos hown, List.dropWhile_append_of_pos hown, List.takeWhile_nil,
      List.dropWhile_nil, List.append_nil]
    cases authority? scheme owner <;> rfl
  have hread := parse?_of_owned? base hweb hne howner (List.forall_mem_nil _) howned
  rwa [List.append_nil] at hread

/-! ### What is read -/

/-- The part of a text that names a hierarchy: no fragment and no query. -/
def front (text : String) : List Char :=
  (Text.cutAt (· = '?') (Text.cutAt (· = '#') (clean text.toList)).1).1

/-- What stands at the front of a text stays there if it is plain. -/
theorem prefix_front {pre : List Char} {text : String} (h : pre <+: text.toList)
    (hpre : ∀ c ∈ pre, isPlain c = true) : pre <+: front text := by
  have hplain : ∀ c ∈ pre, ' ' < c ∧ c ≠ '#' ∧ c ≠ '?' := fun c hc ↦ of_isPlain (hpre c hc)
  have hclean := prefix_clean h fun c hc ↦ (hplain c hc).1
  have hfragment := Text.prefix_cutAt hclean fun c hc ↦ decide_eq_false (hplain c hc).2.1
  exact Text.prefix_cutAt hfragment fun c hc ↦ decide_eq_false (hplain c hc).2.2

theorem exists_hierarchy_of_parse? {base : Option Url} {text : String} {url : Url}
    (h : parse? base text = some url) : ∃ hier keepsQuery hasFragment,
      hierarchy? base (front text) hasFragment = some (hier, keepsQuery) ∧
        url.scheme = hier.scheme ∧ url.authority = hier.authority ∧ url.path = hier.path := by
  obtain ⟨⟨hier, keepsQuery⟩, hhier, h⟩ := Option.bind_eq_some_iff.1 h
  cases h
  exact ⟨hier, keepsQuery, _, hhier, rfl, rfl, rfl⟩

theorem exists_of_owned? {scheme cs : List Char} {hier : Hierarchy}
    (h : owned? scheme cs = some hier) : hier.scheme = scheme ∧
      ∃ owner, authority? scheme owner = some hier.authority ∧
        (isSpecialScheme scheme = true →
          ∃ path, hier.path = .segments (Path.resolve scheme [] path)) := by
  obtain ⟨a, ha, hpath⟩ := Option.bind_eq_some_iff.1 h
  cases hpath
  refine ⟨rfl, _, ha, fun hspecial ↦ ?_⟩
  dsimp only
  split
  · exact ⟨_, rfl⟩
  · rw [if_pos hspecial]
    exact ⟨[], rfl⟩

theorem scheme_of_file? {base : Option Url} {cs : List Char} {hier : Hierarchy}
    {keepsQuery : Bool} (h : file? base cs = some (hier, keepsQuery)) :
    hier.scheme = "file".toList := by
  unfold file? at h
  dsimp only at h
  split at h
  · split at h <;> cases h <;> rfl
  · split at h
    · split at h
      · split at h
        · split at h
          · cases h
            rfl
          · obtain ⟨host, -, hhost⟩ := Option.map_eq_some_iff.1 h
            cases hhost
            rfl
        · cases h
          rfl
      · cases h
        rfl
    · cases h
      rfl

/-- The scheme of a locator that is read alone is its own. -/
theorem scheme_of_absolute? {scheme cs : List Char} {hier : Hierarchy} {keepsQuery : Bool}
    (h : absolute? none scheme cs = some (hier, keepsQuery)) : hier.scheme = scheme := by
  unfold absolute? at h
  dsimp only at h
  split at h
  · rename_i hfile
    exact (scheme_of_file? h).trans (of_decide_eq_true hfile).symm
  · have hown : ∀ {cs : List Char},
        (owned? scheme cs).map (fun h ↦ (h, false)) = some (hier, keepsQuery) →
          hier.scheme = scheme := by
      intro cs h
      obtain ⟨found, hfound, hsame⟩ := Option.map_eq_some_iff.1 h
      cases hsame
      exact (exists_of_owned? hfound).1
    split at h
    · exact hown h
    · split at h
      · exact hown h
      · cases h
        rfl
      · cases h
        rfl

/-- A text that is read alone begins with a scheme. -/
theorem exists_scheme_of_parse? {text : String} {url : Url} (h : parse? none text = some url) :
    ∃ rest, scheme? (front text) = some (url.scheme, rest) ∧
      ∃ hier keepsQuery, absolute? none url.scheme rest = some (hier, keepsQuery) ∧
        url.authority = hier.authority ∧ url.path = hier.path := by
  obtain ⟨hier, keepsQuery, hasFragment, hhier, hscheme, hauthority, hpath⟩ :=
    exists_hierarchy_of_parse? h
  unfold hierarchy? at hhier
  split at hhier
  · rename_i scheme rest hrest
    obtain rfl := scheme_of_absolute? hhier
    exact ⟨rest, hscheme ▸ hrest, hier, keepsQuery, hscheme ▸ hhier, hauthority, hpath⟩
  · cases hhier

/-- **A locator of the web is that of a page**, but for its query and its fragment. -/
theorem exists_page_of_parse? {text : String} {url : Url} (h : parse? none text = some url)
    (hweb : url.isWeb = true) : ∃ owner path, authority? url.scheme owner = some url.authority ∧
      url.withoutSuffix = page url.scheme url.authority (Path.resolve url.scheme [] path) := by
  obtain ⟨rest, -, hier, keepsQuery, hhier, hauthority, hpath⟩ := exists_scheme_of_parse? h
  simp only [absolute?, isFileScheme_of_isWebScheme hweb, isSpecialScheme_of_isWebScheme hweb,
    if_true] at hhier
  obtain ⟨found, hfound, hsame⟩ := Option.map_eq_some_iff.1 hhier
  cases hsame
  obtain ⟨-, owner, howner, hresolve⟩ := exists_of_owned? hfound
  obtain ⟨path, hresolve⟩ := hresolve (isSpecialScheme_of_isWebScheme hweb)
  refine ⟨owner, path, hauthority ▸ howner, ?_⟩
  simp only [withoutSuffix, page, hpath, hresolve, trimPath, authority]

end IndexSnapshot.Url
