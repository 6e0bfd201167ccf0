import IndexSnapshot.Proofs.Url.Owner
import IndexSnapshot.Proofs.Url.Settled

/-!
# Hierarchies

The part of a locator before its query, scheme, owner and path, comes in four forms: with an owner,
as a file, with a path alone, or as a text without structure (`IsRead`). Whatever is read, alone or
against a page, is of one of them (`isRead_of_hierarchy?`), and what it is made of is settled: an
owner that has been read, names that are read as themselves, a text in percent encoding.
-/

namespace IndexSnapshot.Url

variable {base : Option Url} {scheme cs rest text : List Char} {names : List (List Char)}
  {hier : Hierarchy} {keepsQuery : Bool} {a : Authority}

/-- The text has no blank at its end. -/
def IsTight (cs : List Char) : Prop := ∀ c ∈ cs.getLast?, ' ' < c

theorem isTight_nil : IsTight [] := fun _ hc ↦ absurd hc (Option.not_mem_none _)

/-- A scheme as locators hold it, in small letters. -/
structure IsSchemeName (scheme : List Char) : Prop where
  isScheme : IsScheme scheme
  lower_eq : Text.lower scheme = scheme

/-- The names of a path under a scheme. -/
structure IsPath (scheme : List Char) (names : List (List Char)) : Prop where
  isSettled : Path.IsSettled (isSpecialScheme scheme) (isFileScheme scheme) names
  ne_nil : isSpecialScheme scheme = true → names ≠ []

/-- A hierarchy as it is read from a text. If there is no blank at the end of the text, there is
none at the end of a path without structure. -/
inductive IsRead (cs : List Char) : Hierarchy → Prop where
  | owned {scheme owner : List Char} {a : Authority} {names : List (List Char)}
      (hscheme : IsSchemeName scheme) (hfile : isFileScheme scheme = false)
      (howner : authority? scheme owner = some a) (hnames : IsPath scheme names) :
      IsRead cs ⟨scheme, a, .segments names⟩
  | file {name : List Char} {host : Host} {names : List (List Char)}
      (hhost : fileHost? name = some host) (hnames : IsPath "file".toList names) :
      IsRead cs ⟨"file".toList, .ofHost host, .segments names⟩
  | rooted {scheme : List Char} {names : List (List Char)} (hscheme : IsSchemeName scheme)
      (hspecial : isSpecialScheme scheme = false) (hnames : IsPath scheme names) :
      IsRead cs ⟨scheme, .none, .segments names⟩
  | flat {scheme text : List Char} (hscheme : IsSchemeName scheme)
      (hspecial : isSpecialScheme scheme = false)
      (htext : ∀ c ∈ text, Percent.isControl c = false ∧ c ≠ '#' ∧ c ≠ '?')
      (hhead : text.head? ≠ some '/') (htight : IsTight cs → IsTight text) :
      IsRead cs ⟨scheme, .none, .flat text⟩

/-! ### What is read -/

theorem isPath_resolve {done : List (List Char)}
    (h : Path.IsSettled (isSpecialScheme scheme) (isFileScheme scheme) done) (path : List Char) :
    IsPath scheme (Path.resolve scheme done path) :=
  ⟨Path.isSettled_resolve h path,
    fun hspecial ↦ Path.resolve_ne_nil_of_isSpecialScheme hspecial path⟩

theorem isRead_of_owned? (hscheme : IsSchemeName scheme) (hfile : isFileScheme scheme = false)
    (h : owned? scheme text = some hier) : IsRead cs hier := by
  obtain ⟨a, ha, hpath⟩ := Option.bind_eq_some_iff.1 h
  cases hpath
  refine .owned hscheme hfile ha ?_
  split
  · exact isPath_resolve Path.isSettled_nil _
  · split
    · exact isPath_resolve Path.isSettled_nil _
    · exact ⟨Path.isSettled_nil, fun hspecial ↦ absurd hspecial ‹_›⟩

/-- A file that is not read against another one has a host, which may be empty, and a path from its
root. -/
theorem exists_of_file? (hbase : ∀ b ∈ base, isFileScheme b.scheme = false)
    (h : file? base text = some (hier, keepsQuery)) : ∃ name host path,
      fileHost? name = some host ∧
        hier = ⟨"file".toList, .ofHost host, .segments (Path.resolve "file".toList [] path)⟩ := by
  have hnone : base.filter (fun b ↦ isFileScheme b.scheme) = none :=
    Option.filter_eq_none_iff.2 fun b hb ↦ by rw [hbase b hb]; decide
  unfold file? at h
  simp only [hnone] at h
  split at h
  · cases h
    exact ⟨[], .empty, [], rfl, rfl⟩
  · rename_i c rest
    split at h
    · split at h
      · rename_i d tail
        split at h
        · split at h
          · cases h
            exact ⟨[], .empty, tail, rfl, rfl⟩
          · obtain ⟨host, hhost, hsame⟩ := Option.map_eq_some_iff.1 h
            cases hsame
            exact ⟨_, host, _, hhost, rfl⟩
        · cases h
          exact ⟨[], .empty, d :: tail, rfl, rfl⟩
      · cases h
        exact ⟨[], .empty, [], rfl, rfl⟩
    · cases h
      refine ⟨[], .empty, c :: rest, rfl, ?_⟩
      simp [Path.shorten]

theorem isRead_of_file? (hbase : ∀ b ∈ base, isFileScheme b.scheme = false)
    (h : file? base text = some (hier, keepsQuery)) : IsRead cs hier := by
  obtain ⟨name, host, path, hhost, rfl⟩ := exists_of_file? hbase h
  exact .file hhost (isPath_resolve Path.isSettled_nil path)

/-- A locator of a page. -/
structure IsPage (b : Url) : Prop where
  isWeb : b.isWeb = true
  exists_owner : ∃ owner, authority? b.scheme owner = some b.authority
  exists_names : ∃ names, b.path = .segments names ∧ IsPath b.scheme names

theorem isSchemeName_of_isWebScheme (h : isWebScheme scheme = true) : IsSchemeName scheme :=
  ⟨isScheme_of_isWebScheme h, lower_of_isWebScheme h⟩

theorem isSchemeName_file : IsSchemeName "file".toList :=
  ⟨⟨⟨'f', _, rfl, rfl⟩, List.all_eq_true.1 (by decide)⟩, rfl⟩

theorem isPage_of_parse? {text : String} {url : Url} (h : parse? none text = some url)
    (hweb : url.isWeb = true) : IsPage url := by
  obtain ⟨owner, path, howner, hpage⟩ := exists_page_of_parse? h hweb
  refine ⟨hweb, ⟨owner, howner⟩, _, ?_, isPath_resolve Path.isSettled_nil path⟩
  have hpath : trimPath url.path = .segments (Path.resolve url.scheme [] path) :=
    congrArg Url.path hpage
  rcases hurl : url.path with names | flat
  · rw [← hpath, hurl]
    rfl
  · rw [hurl] at hpath
    cases hpath

/-- What a page and a reference without a scheme lead to is a page. -/
theorem isRead_of_relative? {b : Url} (hb : IsPage b)
    (h : relative? b text = some (hier, keepsQuery)) : IsRead cs hier := by
  obtain ⟨owner, howner⟩ := hb.exists_owner
  obtain ⟨names, hnames, hpath⟩ := hb.exists_names
  have hscheme := isSchemeName_of_isWebScheme hb.isWeb
  have hfile := isFileScheme_of_isWebScheme hb.isWeb
  have honBase : ∀ {names}, IsPath b.scheme names →
      IsRead cs ⟨b.scheme, b.authority, .segments names⟩ := .owned hscheme hfile howner
  have hroot : ∀ path, IsPath b.scheme (Path.resolve b.scheme [] path) :=
    isPath_resolve Path.isSettled_nil
  unfold relative? at h
  dsimp only at h
  split at h
  · cases h
    rw [hnames]
    exact honBase hpath
  · split at h
    · split at h
      · split at h
        · obtain ⟨found, hfound, hsame⟩ := Option.map_eq_some_iff.1 h
          cases hsame
          exact isRead_of_owned? hscheme hfile hfound
        · cases h
          exact honBase (hroot _)
      · cases h
        exact honBase (hroot _)
    · cases h
      rw [hnames]
      exact honBase (isPath_resolve (hpath.isSettled.of_isPrefix (Path.shorten_isPrefix _ _)) _)

theorem isTight_encode (h : IsTight text) : IsTight (Percent.encode Percent.isControl text) := by
  rcases List.eq_nil_or_concat text with rfl | ⟨front, last, rfl⟩
  · exact h
  · rw [List.concat_eq_append] at h ⊢
    have hlast : ' ' < last := h last List.getLast?_concat
    have hne : Percent.encode Percent.isControl [last] ≠ [] :=
      mt Percent.encode_eq_nil_iff.1 (List.cons_ne_nil _ _)
    intro c hc
    have happend : Percent.encode Percent.isControl (front ++ [last]) =
        Percent.encode Percent.isControl front ++ Percent.encode Percent.isControl [last] :=
      List.flatMap_append
    rw [happend, List.getLast?_append, List.getLast?_eq_some_getLast hne] at hc
    have hmem : c ∈ Percent.encode Percent.isControl [last] :=
      Option.some.inj hc ▸ List.getLast_mem hne
    rcases Percent.of_mem_encode hmem with rfl | hc | ⟨hc, -⟩
    · decide
    · exact (of_isPlain (isPlain_of_isOwn (isOwn_of_isAlphanum hc))).1
    · rw [List.mem_singleton.1 hc]
      exact hlast

theorem isTight_of_isSuffix (h : IsTight cs) (hrest : rest <:+ cs) : IsTight rest := by
  obtain ⟨front, rfl⟩ := hrest
  intro c hc
  refine h c ?_
  rw [List.getLast?_append, Option.mem_def.1 hc]
  rfl

/-- Controls are encoded, and nothing that begins a query or a fragment comes from encoding. -/
theorem of_mem_encode_isControl (htext : ∀ c ∈ text, c ≠ '#' ∧ c ≠ '?') {c : Char}
    (hc : c ∈ Percent.encode Percent.isControl text) :
    Percent.isControl c = false ∧ c ≠ '#' ∧ c ≠ '?' := by
  rcases Percent.of_mem_encode hc with rfl | hc | ⟨hc, hcontrol⟩
  · decide
  · rw [Text.isAlphanum_iff] at hc
    simp only [Percent.isControl, Bool.or_eq_false_iff, decide_eq_false_iff_not, ne_eq,
      ← Char.toNat_inj, Char.lt_def, UInt32.lt_iff_toNat_lt, Char.toNat_val, Char.reduceToNat]
    omega
  · exact ⟨hcontrol, htext c hc⟩

/-- No slash is put at the front of a text by encoding it. -/
theorem head?_encode_ne (h : text.head? ≠ some '/') :
    (Percent.encode Percent.isControl text).head? ≠ some '/' := by
  rcases text with _ | ⟨c, text⟩
  · exact h
  · rw [Percent.encode, List.flatMap_cons]
    split
    · obtain ⟨b, rest, hbytes⟩ := List.exists_cons_of_ne_nil (@String.utf8EncodeChar_ne_nil c)
      rw [Percent.encodeChar, hbytes]
      simp [Percent.encodeByte]
    · exact h

theorem isFileScheme_of_not_isSpecialScheme (h : isSpecialScheme scheme = false) :
    isFileScheme scheme = false := by
  rw [isFileScheme, decide_eq_false_iff_not]
  rintro rfl
  cases h

theorem isRead_of_absolute? (hbase : ∀ b ∈ base, IsPage b) (hscheme : IsSchemeName scheme)
    (hrest : rest <:+ cs) (hmarks : ∀ c ∈ cs, c ≠ '#' ∧ c ≠ '?')
    (h : absolute? base scheme rest = some (hier, keepsQuery)) : IsRead cs hier := by
  have halone : ∀ {text}, isFileScheme scheme = false →
      (owned? scheme text).map (fun h ↦ (h, false)) = some (hier, keepsQuery) → IsRead cs hier := by
    intro text hfile h
    obtain ⟨found, hfound, hsame⟩ := Option.map_eq_some_iff.1 h
    cases hsame
    exact isRead_of_owned? hscheme hfile hfound
  unfold absolute? at h
  dsimp only at h
  split at h
  · exact isRead_of_file? (fun b hb ↦ isFileScheme_of_isWebScheme (hbase b hb).isWeb) h
  · rename_i hfile
    rw [Bool.not_eq_true] at hfile
    split at h
    · split at h
      · split at h
        · exact isRead_of_relative? (hbase _ rfl) h
        · exact halone hfile h
      · exact halone hfile h
    · rename_i hspecial
      rw [Bool.not_eq_true] at hspecial
      split at h
      · exact halone hfile h
      · cases h
        exact .rooted hscheme hspecial (isPath_resolve Path.isSettled_nil _)
      · rename_i hslash
        cases h
        refine .flat hscheme hspecial
          (fun c ↦ of_mem_encode_isControl fun c hc ↦ hmarks c (hrest.subset hc))
          (head?_encode_ne fun hhead ↦ ?_)
          fun htight ↦ isTight_encode (isTight_of_isSuffix htight hrest)
        obtain ⟨tail, rfl⟩ := List.head?_eq_some_iff.1 hhead
        exact hslash tail rfl

/-- **What is read, alone or against a page, has one of the four forms.** -/
theorem isRead_of_hierarchy? (hbase : ∀ b ∈ base, IsPage b) {hasFragment : Bool}
    (hmarks : ∀ c ∈ cs, c ≠ '#' ∧ c ≠ '?')
    (h : hierarchy? base cs hasFragment = some (hier, keepsQuery)) : IsRead cs hier := by
  unfold hierarchy? at h
  split at h
  · rename_i scheme rest hscheme
    obtain ⟨written, hwritten, rfl, rfl⟩ := eq_append_of_scheme? hscheme
    refine isRead_of_absolute? hbase ⟨isScheme_lower hwritten, Text.lower_lower written⟩ ?_ hmarks h
    exact ⟨written ++ [':'], by simp⟩
  · obtain ⟨b, hb, h⟩ := Option.bind_eq_some_iff.1 h
    have hpage := hbase b hb
    split at h
    · cases h
    · rw [isFileScheme_of_isWebScheme hpage.isWeb, if_neg Bool.false_ne_true] at h
      exact isRead_of_relative? hpage h

end IndexSnapshot.Url
