import IndexSnapshot.Proofs.Url.Hierarchy
import Mathlib.Data.List.DropRight

/-!
# Hierarchies that are read back

A hierarchy that has been read is written with characters that do not end it
(`IsRead.exists_chars_eq`), and what is written is read back when it is read alone
(`IsRead.hierarchy?_chars`): slashes tell where an owner begins and where it ends, and behind a
scheme that has no such structure a path alone never begins with two of them. The one form that is
not its own is a path alone with no name at all, which is written as nothing and read as a text
without structure. Hosts are read back if they are stable.
-/

namespace IndexSnapshot.Url

variable {scheme cs text : List Char} {names : List (List Char)} {hier : Hierarchy} {a : Authority}

/-! ### What is written -/

namespace Hierarchy

/-- The locator with neither query nor fragment. -/
def locator (hier : Hierarchy) : Url where
  scheme := hier.scheme
  username := hier.authority.username
  password := hier.authority.password
  host := hier.authority.host
  port := hier.authority.port
  path := hier.path
  query := none
  fragment := none

/-- The hierarchy in its written form. -/
def chars (hier : Hierarchy) : List Char := hier.locator.chars

/-- The hierarchy without the spaces at the end of a text without structure. -/
def trimmed (hier : Hierarchy) : Hierarchy := { hier with path := trimPath hier.path }

theorem trimPath_flat (text : List Char) :
    trimPath (.flat text) = .flat (text.rdropWhile (· = ' ')) := rfl

theorem trimmed_trimmed (hier : Hierarchy) : hier.trimmed.trimmed = hier.trimmed := by
  obtain ⟨scheme, a, names | text⟩ := hier
  · rfl
  · simp only [trimmed, trimPath_flat, List.rdropWhile_idempotent]

end Hierarchy

/-- A path that stands behind no owner. -/
def rootedText (names : List (List Char)) : List Char :=
  match names with
  | [] :: _ :: _ => '/' :: '.' :: names.flatMap fun name ↦ '/' :: name
  | _ => names.flatMap fun name ↦ '/' :: name

theorem chars_owned {host : Host} (hhost : a.host = some host) :
    Hierarchy.chars ⟨scheme, a, .segments names⟩ =
      scheme ++ ':' :: '/' :: '/' :: (a.chars ++ names.flatMap fun name ↦ '/' :: name) := by
  simp [Hierarchy.chars, Hierarchy.locator, Url.chars, Authority.chars, page, userinfoChars,
    portChars, pathChars, hhost]

theorem chars_rooted : Hierarchy.chars ⟨scheme, .none, .segments names⟩ =
    scheme ++ ':' :: rootedText names := by
  rcases names with _ | ⟨_ | ⟨c, name⟩, _ | ⟨next, names⟩⟩ <;>
    simp [Hierarchy.chars, Hierarchy.locator, Url.chars, Authority.none, pathChars, rootedText]

theorem chars_flat : Hierarchy.chars ⟨scheme, .none, .flat text⟩ = scheme ++ ':' :: text := by
  simp [Hierarchy.chars, Hierarchy.locator, Url.chars, Authority.none, pathChars]

theorem chars_ofHost (host : Host) : (Authority.ofHost host).chars = host.text := by
  simp [Authority.chars, Authority.ofHost, page, userinfoChars, portChars]

theorem exists_host_of_authority? {owner : List Char} (h : authority? scheme owner = some a) :
    ∃ host, a.host = some host := by
  rcases isOwner_or_of_authority? h with howner | ⟨-, rfl⟩
  · exact howner.exists_host.imp fun host ↦ And.right
  · exact ⟨.empty, rfl⟩

/-- What an owner that has been read is written with. -/
theorem isOwn_of_mem_chars {owner : List Char} (h : authority? scheme owner = some a) {c : Char}
    (hc : c ∈ a.chars) : isOwn c = true := by
  rcases isOwner_or_of_authority? h with howner | ⟨-, rfl⟩
  · exact howner.isOwn_of_mem hc
  · exact absurd hc List.not_mem_nil

/-- The host of a file is empty or a host of the web. -/
theorem fileHost?_cases {name : List Char} {host : Host} (h : fileHost? name = some host) :
    host = .empty ∨ Host.parse? true name = some host ∧ host ≠ .domain "localhost".toList := by
  unfold fileHost? at h
  split at h
  · exact .inl (Option.some.inj h).symm
  · obtain ⟨found, hfound, hsame⟩ := Option.map_eq_some_iff.1 h
    split at hsame
    · exact .inl hsame.symm
    · rename_i hlocal
      obtain rfl := hsame
      exact .inr ⟨hfound, hlocal⟩

theorem isOwn_of_mem_fileHost {name : List Char} {host : Host} (h : fileHost? name = some host)
    {c : Char} (hc : c ∈ host.text) : isOwn c = true := by
  rcases fileHost?_cases h with rfl | ⟨hparse, -⟩
  · exact absurd hc List.not_mem_nil
  · exact Host.isOwn_of_mem_text (.web (Host.isWeb_of_parse? hparse)) hc

/-- What a path is written with. -/
theorem IsPath.isPlain_of_mem (h : IsPath scheme names) {c : Char}
    (hc : c ∈ names.flatMap fun name ↦ '/' :: name) : isPlain c = true := by
  obtain ⟨name, hname, hc⟩ := List.mem_flatMap.1 hc
  rcases List.mem_cons.1 hc with rfl | hc
  · rfl
  · exact h.isSettled.isPlain_of_mem hname hc

theorem IsPath.isPlain_of_mem_rootedText (h : IsPath scheme names) {c : Char}
    (hc : c ∈ rootedText names) : isPlain c = true := by
  unfold rootedText at hc
  split at hc
  · rcases List.mem_cons.1 hc with rfl | hc
    · rfl
    · rcases List.mem_cons.1 hc with rfl | hc
      · rfl
      · exact h.isPlain_of_mem hc
  · exact h.isPlain_of_mem hc

theorem isTight_of_forall (h : ∀ c ∈ cs, isPlain c = true) : IsTight cs := fun c hc ↦
  (of_isPlain (h c (List.mem_of_getLast? hc))).1

/-- The written form begins with the scheme; it holds no controls and nothing that ends it, and no
blank at its end but for that of a text without structure. -/
theorem IsRead.exists_chars_eq (h : IsRead cs hier) :
    ∃ rest, hier.chars = hier.scheme ++ ':' :: rest ∧
      IsSchemeName hier.scheme ∧ (∀ c ∈ rest, c = ' ' ∨ isPlain c = true) ∧
      (IsTight cs → IsTight rest) := by
  have hplain : ∀ {rest : List Char}, (∀ c ∈ rest, isPlain c = true) →
      (∀ c ∈ rest, c = ' ' ∨ isPlain c = true) ∧ (IsTight cs → IsTight rest) :=
    fun hrest ↦ ⟨fun c hc ↦ .inr (hrest c hc), fun _ ↦ isTight_of_forall hrest⟩
  have hbehind : ∀ {scheme owner : List Char} {names}, IsPath scheme names →
      (∀ c ∈ owner, isOwn c = true) →
      ∀ c ∈ '/' :: '/' :: (owner ++ names.flatMap fun name ↦ '/' :: name), isPlain c = true := by
    intro scheme owner names hnames howner c hc
    simp only [List.mem_cons, List.mem_append] at hc
    rcases hc with rfl | rfl | hc | hc
    · rfl
    · rfl
    · exact isPlain_of_isOwn (howner c hc)
    · exact hnames.isPlain_of_mem hc
  cases h with
  | owned hscheme hfile howner hnames =>
    obtain ⟨host, hhost⟩ := exists_host_of_authority? howner
    exact ⟨_, chars_owned hhost, hscheme, hplain (hbehind hnames fun c ↦ isOwn_of_mem_chars howner)⟩
  | file hhost hnames =>
    refine ⟨_, chars_owned rfl, isSchemeName_file, hplain (hbehind hnames ?_)⟩
    rw [chars_ofHost]
    exact fun c ↦ isOwn_of_mem_fileHost hhost
  | rooted hscheme hspecial hnames =>
    exact ⟨_, chars_rooted, hscheme, hplain fun c ↦ hnames.isPlain_of_mem_rootedText⟩
  | flat hscheme hspecial htext hhead htight =>
    exact ⟨_, chars_flat, hscheme, fun c hc ↦ isPlain_of_not_isControl (htext c hc), htight⟩

theorem isTight_rdropWhile (h : ∀ c ∈ text, c = ' ' ∨ isPlain c = true) :
    IsTight (text.rdropWhile (· = ' ')) := by
  intro c hc
  have hne : text.rdropWhile (· = ' ') ≠ [] := by
    intro hnil
    rw [hnil] at hc
    exact absurd hc (Option.not_mem_none c)
  obtain rfl : (text.rdropWhile (· = ' ')).getLast hne = c :=
    Option.some.inj ((List.getLast?_eq_some_getLast hne).symm.trans hc)
  rcases h _ ((List.rdropWhile_prefix _ _).subset (List.getLast_mem hne)) with hspace | hplain
  · exact absurd (decide_eq_true hspace) (List.rdropWhile_last_not _ _ hne)
  · exact (of_isPlain hplain).1

/-- Spaces are taken off the end of a text without structure, and all else is written as it is. -/
theorem IsRead.trimmed (h : IsRead cs hier) : IsRead [] hier.trimmed := by
  cases h with
  | owned hscheme hfile howner hnames => exact .owned hscheme hfile howner hnames
  | file hhost hnames => exact .file hhost hnames
  | rooted hscheme hspecial hnames => exact .rooted hscheme hspecial hnames
  | @flat scheme text hscheme hspecial htext hhead htight =>
    show IsRead [] ⟨scheme, .none, .flat (text.rdropWhile (· = ' '))⟩
    obtain ⟨rest, hrest⟩ := List.rdropWhile_prefix (· = ' ') text
    refine .flat hscheme hspecial (fun c hc ↦ htext c ?_) (fun hhead' ↦ hhead ?_) fun _ ↦
      isTight_rdropWhile fun c hc ↦ isPlain_of_not_isControl (htext c hc)
    · exact (List.rdropWhile_prefix _ _).subset hc
    · rw [← hrest, List.head?_append, hhead']
      rfl

/-! ### What is read back -/

/-- **An owner and a path come apart** at the first slash. -/
theorem owned?_append_flatMap {owner : List Char} (howner : ∀ c ∈ owner, isOwn c = true)
    (hnames : IsPath scheme names) :
    owned? scheme (owner ++ names.flatMap fun name ↦ '/' :: name) =
      (authority? scheme owner).map fun a ↦ ⟨scheme, a, .segments names⟩ := by
  have hown : ∀ c ∈ owner, (!Path.isSlash (isSpecialScheme scheme) c) = true := fun c hc ↦ by
    rw [isSlash_of_isOwn (howner c hc)]
    rfl
  have hslash : (!Path.isSlash (isSpecialScheme scheme) '/') = false := rfl
  rw [owned?]
  dsimp only
  rw [List.takeWhile_append_of_pos hown, List.dropWhile_append_of_pos hown]
  rcases names with _ | ⟨name, names⟩
  · have hspecial : isSpecialScheme scheme = false := by
      by_contra hspecial
      exact hnames.ne_nil (by simpa using hspecial) rfl
    rw [List.flatMap_nil, List.takeWhile_nil, List.dropWhile_nil, List.append_nil, hspecial]
    cases authority? scheme owner <;> rfl
  · rw [List.flatMap_cons, List.cons_append, List.takeWhile_cons_of_neg (by simp [hslash]),
      List.dropWhile_cons_of_neg (by simp [hslash]), List.append_nil]
    dsimp only
    rw [← Path.pathText, hnames.isSettled.resolve_pathText]
    cases authority? scheme owner <;> rfl

/-- The host of a file is read back. -/
theorem fileHost?_text {name : List Char} {host : Host} (h : fileHost? name = some host)
    (hstable : host.IsStable) : fileHost? host.text = some host := by
  rcases fileHost?_cases h with rfl | ⟨hparse, hlocal⟩
  · rfl
  · have hne := Host.text_ne_nil (.web (Host.isWeb_of_parse? hparse))
    rw [fileHost?, if_neg (by simpa using hne), Host.parse?_text hparse hstable, Option.map_some,
      if_neg hlocal]

/-- No host is written as a drive is. -/
theorem isDriveLetter_hostText {name : List Char} {host : Host} (h : fileHost? name = some host) :
    Path.isDriveLetter host.text = false := by
  rcases fileHost?_cases h with rfl | ⟨hparse, -⟩
  · rfl
  · rw [Bool.eq_false_iff]
    intro hdrive
    obtain ⟨letter, mark, htext, hletter, hmark⟩ := Path.isDriveLetter_iff.1 hdrive
    have hforbidden : Host.isForbiddenInDomain mark = true := by
      rcases hmark with rfl | rfl <;> decide
    have hmem : mark ∈ host.text := htext ▸ List.mem_cons_of_mem _ List.mem_cons_self
    cases Host.isWeb_of_parse? hparse with
    | domain _ hname _ => exact absurd (hname mark hmem) (by simp [hforbidden])
    | ipv4 _ =>
      exact absurd (Host.isForbiddenInDomain_of_mem_ipv4Text hmem) (by simp [hforbidden])
    | ipv6 _ =>
      obtain rfl := (List.cons_eq_cons.1 htext).1
      cases hletter

theorem file?_chars {name : List Char} {host : Host} (hhost : fileHost? name = some host)
    (hstable : host.IsStable) (hnames : IsPath "file".toList names) :
    file? none ('/' :: '/' :: (host.text ++ names.flatMap fun name ↦ '/' :: name)) =
      some (⟨"file".toList, .ofHost host, .segments names⟩, false) := by
  obtain ⟨first, names, rfl⟩ := List.exists_cons_of_ne_nil (hnames.ne_nil (by decide))
  have hown : ∀ c ∈ host.text, (!Path.isSlash true c) = true := fun c hc ↦ by
    rw [isSlash_of_isOwn (isOwn_of_mem_fileHost hhost hc)]
    rfl
  have htake : (host.text ++ (first :: names).flatMap fun name ↦ '/' :: name).takeWhile
      (fun c ↦ !Path.isSlash true c) = host.text := by
    rw [List.takeWhile_append_of_pos hown, List.flatMap_cons, List.cons_append,
      List.takeWhile_cons_of_neg (by decide), List.append_nil]
  have hdrop : ((host.text ++ (first :: names).flatMap fun name ↦ '/' :: name).drop
      host.text.length).drop 1 = Path.pathText first names := by
    rw [List.drop_left, List.flatMap_cons]
    rfl
  have hslash : Path.isSlash true '/' = true := rfl
  simp only [file?, hslash, if_true, htake, hdrop, isDriveLetter_hostText hhost,
    fileHost?_text hhost hstable, hnames.isSettled.resolve_pathText]
  rfl

theorem hierarchy?_none (hscheme : IsSchemeName scheme) (rest : List Char) (hasFragment : Bool) :
    hierarchy? none (scheme ++ ':' :: rest) hasFragment = absolute? none scheme rest := by
  rw [hierarchy?, scheme?_append hscheme.isScheme, hscheme.lower_eq]

/-- **A locator with an owner is read part by part.** -/
theorem absolute?_owned {owner : List Char} (hfile : isFileScheme scheme = false)
    (hne : isSpecialScheme scheme = true → owner ≠ []) (howner : ∀ c ∈ owner, isOwn c = true)
    (hnames : IsPath scheme names) :
    absolute? none scheme ('/' :: '/' :: (owner ++ names.flatMap fun name ↦ '/' :: name)) =
      (authority? scheme owner).map fun a ↦ (⟨scheme, a, .segments names⟩, false) := by
  have howned : (owned? scheme (owner ++ names.flatMap fun name ↦ '/' :: name)).map
      (fun h ↦ (h, false)) =
        (authority? scheme owner).map fun a ↦ (⟨scheme, a, .segments names⟩, false) := by
    rw [owned?_append_flatMap howner hnames, Option.map_map]
    rfl
  by_cases hspecial : isSpecialScheme scheme = true
  · simp only [absolute?, hfile, hspecial, skipSlashes_owner (hne hspecial) howner, if_true]
    exact howned
  · rw [Bool.not_eq_true] at hspecial
    simp only [absolute?, hfile, hspecial]
    exact howned

/-- A dot in front of a path is dropped. -/
theorem resolve_dot (path : List Char) :
    Path.resolve scheme [] ('.' :: '/' :: path) = Path.resolve scheme [] path := by
  obtain ⟨piece, pieces, hpieces⟩ := List.exists_cons_of_ne_nil
    (Text.splitAtMarks_ne_nil (Path.isSlash (isSpecialScheme scheme)) path)
  have hslash : Path.isSlash (isSpecialScheme scheme) '/' = true := rfl
  have hsplit : Text.splitAtMarks (Path.isSlash (isSpecialScheme scheme)) ('.' :: '/' :: path) =
      ['.'] :: piece :: pieces := by
    rw [← List.singleton_append, Text.splitAtMarks_append_mark hslash, hpieces,
      Text.splitAtMarks_of_forall fun c hc ↦ ?_]
    · rfl
    · rw [List.mem_singleton.1 hc]
      cases isSpecialScheme scheme <;> rfl
  rw [Path.resolve, hsplit, Path.pushAll_cons_cons, Path.resolve, hpieces]
  rfl

theorem exists_rootedText_eq (hnames : IsPath scheme names) (hne : names ≠ []) :
    ∃ path, rootedText names = '/' :: path ∧ path.head? ≠ some '/' ∧
      Path.resolve scheme [] path = names := by
  obtain ⟨name, names, rfl⟩ := List.exists_cons_of_ne_nil hne
  have hresolve := hnames.isSettled.resolve_pathText
  rcases name with _ | ⟨c, name⟩
  · rcases names with _ | ⟨next, names⟩
    · exact ⟨Path.pathText [] [], rfl, by simp [Path.pathText], hresolve⟩
    · refine ⟨'.' :: '/' :: Path.pathText [] (next :: names), rfl, by simp, ?_⟩
      rw [resolve_dot, hresolve]
  · refine ⟨Path.pathText (c :: name) names, rfl, fun hhead ↦ ?_, hresolve⟩
    obtain rfl : c = '/' := Option.some.inj hhead
    have hslash := hnames.isSettled.isSlash_of_mem _ List.mem_cons_self '/' List.mem_cons_self
    cases hslash

theorem absolute?_slash {path : List Char} (hspecial : isSpecialScheme scheme = false)
    (hhead : path.head? ≠ some '/') : absolute? none scheme ('/' :: path) =
      some (⟨scheme, .none, .segments (Path.resolve scheme [] path)⟩, false) := by
  have hfile := isFileScheme_of_not_isSpecialScheme hspecial
  rcases path with _ | ⟨c, path⟩
  · simp only [absolute?, hfile, hspecial]
    rfl
  · have hc : c ≠ '/' := fun hc ↦ hhead (congrArg some hc)
    simp [absolute?, hfile, hspecial, hc]

theorem absolute?_flat (hspecial : isSpecialScheme scheme = false) (hhead : text.head? ≠ some '/') :
    absolute? none scheme text =
      some (⟨scheme, .none, .flat (Percent.encode Percent.isControl text)⟩, false) := by
  have hfile := isFileScheme_of_not_isSpecialScheme hspecial
  rcases text with _ | ⟨c, text⟩
  · simp only [absolute?, hfile, hspecial]
    rfl
  · have hc : c ≠ '/' := fun hc ↦ hhead (congrArg some hc)
    simp [absolute?, hfile, hspecial, hc]

/-- **What has been read is read back** from its written form, but for a path alone without a name,
which is written as a text without structure is that is empty. -/
theorem IsRead.hierarchy?_chars (h : IsRead cs hier)
    (hstable : ∀ host ∈ hier.authority.host, host.IsStable) (hasFragment : Bool) :
    ∃ hier', hierarchy? none hier.chars hasFragment = some (hier', false) ∧
      hier'.trimmed.chars = hier.trimmed.chars := by
  cases h with
  | @owned scheme owner a names hscheme hfile howner hnames =>
    obtain ⟨host, hhost⟩ := exists_host_of_authority? howner
    have hne : isSpecialScheme scheme = true → a.chars ≠ [] := fun hspecial ↦
      (isOwner_of_authority? hspecial howner).chars_ne_nil
    refine ⟨_, ?_, rfl⟩
    rw [chars_owned hhost, hierarchy?_none hscheme,
      absolute?_owned hfile hne (fun c ↦ isOwn_of_mem_chars howner) hnames,
      authority?_chars_of_authority? howner hstable]
    rfl
  | @file name host names hhost hnames =>
    refine ⟨_, ?_, rfl⟩
    rw [chars_owned rfl, hierarchy?_none isSchemeName_file, chars_ofHost]
    exact file?_chars hhost (hstable host rfl) hnames
  | @rooted scheme names hscheme hspecial hnames =>
    rw [chars_rooted, hierarchy?_none hscheme]
    rcases names with _ | ⟨name, names⟩
    · exact ⟨_, absolute?_flat hspecial (Option.some_ne_none '/').symm, rfl⟩
    · obtain ⟨path, htext, hhead, hresolve⟩ := exists_rootedText_eq hnames (List.cons_ne_nil _ _)
      refine ⟨_, ?_, rfl⟩
      rw [htext, absolute?_slash hspecial hhead, hresolve]
  | @flat scheme text hscheme hspecial htext hhead htight =>
    refine ⟨_, ?_, rfl⟩
    rw [chars_flat, hierarchy?_none hscheme, absolute?_flat hspecial hhead,
      Percent.encode_of_forall fun c hc ↦ (htext c hc).1]

end IndexSnapshot.Url
