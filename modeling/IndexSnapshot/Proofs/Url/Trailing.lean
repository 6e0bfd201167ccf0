import IndexSnapshot.Proofs.Domain.Blanks
import IndexSnapshot.Proofs.Url.Cleaned
import IndexSnapshot.Proofs.Url.Coding

/-!
# Slashes at the end of a text

A text of the web that is read is read without the slashes at its end too, and it has the same
scheme and the same owner then (`exists_parse?_of_append_slashes`). The slashes may stand in the
fragment, in the query or in the path, where nothing of this depends on them. If they stand right
behind the owner, then the owner goes on to the end of the text without them, and all that could
change it are blanks there, which are taken off the end of a text but not from before a slash: an
owner with blanks at its end is not read (`authority?_concat`).
-/

namespace IndexSnapshot

variable {c : Char} {cs : List Char}

/-! ### Blanks in hosts and ports -/

namespace Percent

/-- A character that is no part of an encoded byte is decoded as it is. -/
theorem mem_decodeBytes (hc : c ≠ '%') (hdigit : Number.digitValue? c = none) (h : c ∈ cs)
    {b : UInt8} (hb : b ∈ String.utf8EncodeChar c) : b ∈ decodeBytes cs := by
  fun_induction decodeBytes cs with
  | case1 high low rest byte hbyte ih =>
    obtain ⟨h₁, hhigh, hrest⟩ := Option.bind_eq_some_iff.1 hbyte
    obtain ⟨h₂, hlow, -⟩ := Option.bind_eq_some_iff.1 hrest
    simp only [List.mem_cons] at h
    rcases h with rfl | rfl | rfl | h
    · exact absurd rfl hc
    · rw [hdigit] at hhigh
      cases hhigh
    · rw [hdigit] at hlow
      cases hlow
    · exact List.mem_cons_of_mem byte (ih h)
  | case2 high low rest hbyte ih =>
    exact List.mem_append_right _ (ih ((List.mem_cons.1 h).resolve_left hc))
  | case3 d rest hd ih =>
    rcases List.mem_cons.1 h with rfl | h
    · exact List.mem_append_left _ hb
    · exact List.mem_append_right _ (ih h)
  | case4 => cases h

/-- A character of one byte is in a text if its byte is in what the text is encoded as. -/
theorem mem_of_mem_flatMap {b : UInt8} (hc : String.utf8EncodeChar c = [b])
    (h : b ∈ cs.flatMap String.utf8EncodeChar) : c ∈ cs := by
  have hfirst : b.IsUTF8FirstByte := by
    obtain ⟨first, rest, heq, hfirst, -⟩ := exists_utf8EncodeChar_eq_cons c
    rw [hc] at heq
    exact (List.cons_eq_cons.1 heq).1 ▸ hfirst
  obtain ⟨d, hd, hb⟩ := List.mem_flatMap.1 h
  obtain ⟨first, rest, heq, -, hrest⟩ := exists_utf8EncodeChar_eq_cons d
  rw [heq, List.mem_cons] at hb
  have hsame : b = first := hb.resolve_right fun hmem ↦ hrest b hmem hfirst
  have happend : String.utf8EncodeChar d ++ [] = String.utf8EncodeChar c ++ rest := by
    rw [List.append_nil, heq, hc, hsame]
    rfl
  exact (utf8EncodeChar_append_inj happend).1 ▸ hd

end Percent

theorem Number.digitValue?_of_blank (hc : c ≤ ' ') : digitValue? c = none := by
  have hcode := Domain.le_space_iff.1 hc
  have hdigit : ¬ c.isDigit = true := by
    rw [Text.isDigit_iff]
    omega
  have hletter : ¬ ('a' ≤ c.toLower ∧ c.toLower ≤ 'f') := by
    have hlower : c.toLower = c := by rw [← Char.toNat_inj, Text.toNat_toLower, if_neg (by omega)]
    rw [hlower]
    rintro ⟨hle, -⟩
    have hle : 97 ≤ c.toNat := hle
    omega
  rw [digitValue?, if_neg hdigit, if_neg hletter]

namespace Host

theorem ofDomain?_of_mem_blank (hc : c ≤ ' ') (h : c ∈ cs) : ofDomain? cs = none := by
  have hcode := Domain.le_space_iff.1 hc
  have hbyte : String.utf8EncodeChar c = [UInt8.ofNat c.toNat] :=
    if_pos (show c.toNat ≤ 127 by omega)
  have hpercent : c ≠ '%' := by
    rintro rfl
    exact absurd hc (by decide)
  have hforbidden : isForbiddenInDomain c = true := by
    rcases Nat.lt_or_eq_of_le hcode with hcontrol | hspace
    · have hle : c ≤ '\x1f' := Nat.le_of_lt_succ hcontrol
      simp [isForbiddenInDomain, hle]
    · obtain rfl : c = ' ' := Char.toNat_inj.1 hspace
      decide
  rw [Option.eq_none_iff_forall_ne_some]
  intro host hhost
  obtain ⟨decoded, hdecoded, hhost⟩ := Option.bind_eq_some_iff.1 hhost
  obtain ⟨name, hname, hhost⟩ := Option.bind_eq_some_iff.1 hhost
  have hmem : c ∈ name := by
    refine Domain.mem_toAscii? hc hname (Percent.mem_of_mem_flatMap hbyte ?_)
    rw [← Percent.ofUtf8?_eq_some_iff.1 hdecoded]
    refine Percent.mem_decodeBytes hpercent (Number.digitValue?_of_blank hc) h ?_
    rw [hbyte]
    exact List.mem_singleton_self _
  have hany : name.any isForbiddenInDomain = true := List.any_eq_true.2 ⟨c, hmem, hforbidden⟩
  rw [hany, Bool.or_true, if_pos rfl] at hhost
  cases hhost

/-- A host does not end with a blank. -/
theorem parse?_concat (hc : c ≤ ' ') (cs : List Char) : parse? true (cs ++ [c]) = none := by
  have hdomain := ofDomain?_of_mem_blank hc (List.mem_append_right cs (List.mem_singleton_self c))
  unfold parse?
  split
  · rename_i rest heq
    rw [if_neg]
    intro hlast
    have hgetLast : (cs ++ [c]).getLast? = some ']' := by
      rw [heq, List.getLast?_cons, hlast]
      rfl
    rw [List.getLast?_concat] at hgetLast
    cases hgetLast
    exact absurd hc (by decide)
  · exact hdomain

end Host

/-! ### Blanks in owners -/

namespace Text

variable {isMark : Char → Bool}

theorem cutAt_cons_of_not_mark (hc : isMark c = false) (cs : List Char) :
    cutAt isMark (c :: cs) = (c :: (cutAt isMark cs).1, (cutAt isMark cs).2) := by
  have hdrop : (c :: cs).dropWhile (fun c ↦ !isMark c) = cs.dropWhile fun c ↦ !isMark c :=
    List.dropWhile_cons_of_pos (by rw [hc]; rfl)
  have htake : (c :: cs).takeWhile (fun c ↦ !isMark c) = c :: cs.takeWhile fun c ↦ !isMark c :=
    List.takeWhile_cons_of_pos (by rw [hc]; rfl)
  unfold cutAt
  rw [hdrop, htake]
  split <;> rfl

theorem cutAtLast_concat (hc : isMark c = false) (cs : List Char) :
    cutAtLast isMark (cs ++ [c]) = ((cutAtLast isMark cs).1, (cutAtLast isMark cs).2 ++ [c]) := by
  simp [cutAtLast, cutAt_cons_of_not_mark hc]

end Text

namespace Url

variable {scheme : List Char}

/-- A character that the search does not look for stands at the end of the port, or of the host if
there is no port. -/
theorem splitPort_go_concat (hmark : c ≠ ':' ∧ c ≠ '[' ∧ c ≠ ']') (inside : Bool)
    (before cs : List Char) : splitPort.go inside before (cs ++ [c]) =
      match splitPort.go inside before cs with
      | (host, none) => (host ++ [c], none)
      | (host, some port) => (host, some (port ++ [c])) := by
  induction cs generalizing inside before with
  | nil => simp [splitPort.go, hmark]
  | cons d cs ih =>
    rw [List.cons_append, splitPort.go, splitPort.go]
    split
    · rfl
    · split
      · exact ih true (d :: before)
      · split
        · exact ih false (d :: before)
        · exact ih inside (d :: before)

theorem port?_concat (hc : c ≤ ' ') (cs : List Char) : port? scheme (cs ++ [c]) = none := by
  have hdigits : (cs ++ [c]).isEmpty = false := by simp
  have hvalue : Number.valueIn? 10 (cs ++ [c]) = none := by
    rw [Number.valueIn?_concat, Number.digitValue?_of_blank hc]
    cases Number.valueIn? 10 cs <;> rfl
  rw [port?, hdigits, hvalue]
  rfl

/-- **No owner ends with a blank.** -/
theorem authority?_concat (hspecial : isSpecialScheme scheme = true) (hc : c ≤ ' ')
    (cs : List Char) : authority? scheme (cs ++ [c]) = none := by
  have hne : ∀ mark : Char, ¬ mark ≤ ' ' → c ≠ mark := by
    rintro mark hmark rfl
    exact hmark hc
  have hat : decide (c = '@') = false := decide_eq_false (hne '@' (by decide))
  have hmark : c ≠ ':' ∧ c ≠ '[' ∧ c ≠ ']' :=
    ⟨hne ':' (by decide), hne '[' (by decide), hne ']' (by decide)⟩
  have hcut : Text.cutAtLast (· = '@') (cs ++ [c]) =
      ((Text.cutAtLast (· = '@') cs).1, (Text.cutAtLast (· = '@') cs).2 ++ [c]) :=
    Text.cutAtLast_concat hat cs
  have hsplit := splitPort_go_concat hmark false [] (Text.cutAtLast (· = '@') cs).2
  rcases hends : splitPort.go false [] (Text.cutAtLast (· = '@') cs).2 with ⟨host, _ | port⟩
  · rw [hends] at hsplit
    dsimp only at hsplit
    have hne : (host ++ [c]).isEmpty = false := by simp
    simp only [authority?, hcut, splitPort, hsplit, hne, hspecial, Host.parse?_concat hc]
    rfl
  · rw [hends] at hsplit
    dsimp only at hsplit
    simp only [authority?, hcut, splitPort, hsplit, Option.getD_some, port?_concat hc, hspecial,
      Bool.true_or, if_true]
    split
    · rfl
    · exact Option.bind_fun_none _

/-! ### Blanks and slashes behind an owner -/

/-- Blanks, and slashes behind them, at the end of a text. -/
structure IsEnd (blanks slashes : List Char) : Prop where
  blank : ∀ c ∈ blanks, c ≤ ' '
  slash : ∀ c ∈ slashes, c = '/'

/-- The owner in front of slashes. -/
def ownerText (cs : List Char) : List Char := cs.takeWhile fun c ↦ !Path.isSlash true c

theorem owned?_eq (hspecial : isSpecialScheme scheme = true) (cs : List Char) :
    (owned? scheme cs).map Hierarchy.authority = authority? scheme (ownerText cs) := by
  rw [owned?, hspecial, ownerText]
  cases authority? scheme (cs.takeWhile fun c ↦ !Path.isSlash true c) <;> rfl

theorem not_isSlash_of_blank (hc : c ≤ ' ') : Path.isSlash true c = false := by
  have hcode := Domain.le_space_iff.1 hc
  simp only [Path.isSlash, ← Char.toNat_inj, Char.reduceToNat, Bool.true_and, Bool.or_eq_false_iff,
    decide_eq_false_iff_not]
  omega

section Append

variable {blanks slashes : List Char} (hend : IsEnd blanks slashes)

include hend

theorem IsEnd.ownerText_eq : ownerText (blanks ++ slashes) = blanks := by
  have hkept : ∀ c ∈ blanks, (!Path.isSlash true c) = true := fun c hc ↦ by
    rw [not_isSlash_of_blank (hend.blank c hc)]
    rfl
  rw [ownerText, List.takeWhile_append_of_pos hkept]
  rcases slashes with _ | ⟨c, slashes⟩
  · exact List.append_nil _
  · obtain rfl := hend.slash c List.mem_cons_self
    rw [List.takeWhile_cons_of_neg (by decide), List.append_nil]

/-- Behind an owner nothing is added to it but blanks. -/
theorem IsEnd.exists_ownerText_append (cs : List Char) : ∃ added : List Char,
    (∀ c ∈ added, c ≤ ' ') ∧ ownerText (skipSlashes (cs ++ (blanks ++ slashes))) =
      ownerText (skipSlashes cs) ++ added := by
  have happend : skipSlashes (cs ++ (blanks ++ slashes)) =
      if (skipSlashes cs).isEmpty then skipSlashes (blanks ++ slashes)
      else skipSlashes cs ++ (blanks ++ slashes) := List.dropWhile_append
  rw [happend]
  split
  · rename_i hnone
    rw [List.isEmpty_iff.1 hnone]
    rcases blanks with _ | ⟨c, blanks⟩
    · have hslashes : skipSlashes slashes = [] :=
        List.dropWhile_eq_nil_iff.2 fun c hc ↦ by rw [hend.slash c hc]; rfl
      exact ⟨[], fun c hc ↦ absurd hc List.not_mem_nil, by rw [List.nil_append, hslashes]; rfl⟩
    · have hstay : skipSlashes (c :: blanks ++ slashes) = c :: blanks ++ slashes := by
        have hc := not_isSlash_of_blank (hend.blank c List.mem_cons_self)
        exact List.dropWhile_cons_of_neg (by rw [hc]; exact Bool.false_ne_true)
      exact ⟨c :: blanks, hend.blank, by rw [hstay, hend.ownerText_eq]; rfl⟩
  · have htake : ownerText (skipSlashes cs ++ (blanks ++ slashes)) =
        if (ownerText (skipSlashes cs)).length = (skipSlashes cs).length
        then skipSlashes cs ++ ownerText (blanks ++ slashes) else ownerText (skipSlashes cs) :=
      List.takeWhile_append
    rw [htake]
    split
    · rename_i hwhole
      have hall : ownerText (skipSlashes cs) = skipSlashes cs :=
        (List.takeWhile_prefix _).eq_of_length hwhole
      exact ⟨blanks, hend.blank, by rw [hall, hend.ownerText_eq]⟩
    · exact ⟨[], fun c hc ↦ absurd hc List.not_mem_nil, (List.append_nil _).symm⟩

theorem IsEnd.authority?_ownerText {a : Authority} (hspecial : isSpecialScheme scheme = true)
    (h : authority? scheme (ownerText (skipSlashes (cs ++ (blanks ++ slashes)))) = some a) :
    authority? scheme (ownerText (skipSlashes cs)) = some a := by
  obtain ⟨added, hadded, happend⟩ := hend.exists_ownerText_append cs
  rw [happend] at h
  rcases List.eq_nil_or_concat added with rfl | ⟨front, last, rfl⟩
  · rwa [List.append_nil] at h
  · rw [List.concat_eq_append, ← List.append_assoc,
      authority?_concat hspecial (hadded last (by simp))] at h
    cases h

end Append

/-! ### Fronts -/

theorem takeWhile_append_of_forall {p : Char → Bool} {tail : List Char} (h : ∀ c ∈ tail, p c = true)
    (cs : List Char) : ∃ kept, (kept = [] ∨ kept = tail) ∧
      (cs ++ tail).takeWhile p = cs.takeWhile p ++ kept := by
  rw [List.takeWhile_append]
  split
  · rename_i hwhole
    have hall : cs.takeWhile p = cs := (List.takeWhile_prefix p).eq_of_length hwhole
    exact ⟨tail, .inr rfl, by rw [List.takeWhile_eq_self_iff.2 h, hall]⟩
  · exact ⟨[], .inl rfl, (List.append_nil _).symm⟩

/-- Slashes keep blanks in front of them from being taken off the end of a text. -/
theorem exists_clean_append_slashes (cs : List Char) {slashes : List Char}
    (hslashes : ∀ c ∈ slashes, c = '/') (hne : slashes ≠ []) :
    ∃ blanks, IsEnd blanks slashes ∧ clean (cs ++ slashes) = clean cs ++ (blanks ++ slashes) := by
  obtain ⟨first, more, rfl⟩ := List.exists_cons_of_ne_nil hne
  have hedge : ∀ c ∈ first :: more, isEdge c = false := fun c hc ↦ by rw [hslashes c hc]; rfl
  have hkept : ∀ c ∈ first :: more, isKept c = true := fun c hc ↦ by rw [hslashes c hc]; rfl
  have hfront : (cs ++ first :: more).dropWhile isEdge = cs.dropWhile isEdge ++ first :: more := by
    have hstay : (first :: more).dropWhile isEdge = first :: more :=
      List.dropWhile_cons_of_neg (by simp [hedge first List.mem_cons_self])
    rw [List.dropWhile_append, hstay]
    split
    · rename_i hnone
      rw [List.isEmpty_iff.1 hnone, List.nil_append]
    · rfl
  have hback : more.rdropWhile isEdge = more := by
    refine List.rdropWhile_eq_self_iff.2 fun hmore ↦ ?_
    simp [hedge _ (List.mem_cons_of_mem first (List.getLast_mem hmore))]
  have hends : (cs.dropWhile isEdge).filter isKept =
      clean cs ++ ((cs.dropWhile isEdge).rtakeWhile isEdge).filter isKept := by
    rw [clean_eq, ← List.filter_append, List.rdropWhile_append_rtakeWhile]
  refine ⟨((cs.dropWhile isEdge).rtakeWhile isEdge).filter isKept, ⟨fun c hc ↦ ?_, hslashes⟩, ?_⟩
  · have hedge : isEdge c = true := List.mem_rtakeWhile_imp (List.mem_filter.1 hc).1
    exact of_decide_eq_true hedge
  · rw [clean_eq, hfront, rdropWhile_append_cons (hedge first List.mem_cons_self), hback,
      List.filter_append, hends, List.filter_eq_self.2 hkept, List.append_assoc]

/-- Slashes at the end of a text are cut off with its query or its fragment, or they stand at the
end of its front, behind blanks that would be at its edge without them. -/
theorem exists_front_append_slashes (cs : List Char) {slashes : List Char}
    (hslashes : ∀ c ∈ slashes, c = '/') :
    front (String.ofList (cs ++ slashes)) = front (String.ofList cs) ∨ ∃ blanks,
      IsEnd blanks slashes ∧
        front (String.ofList (cs ++ slashes)) =
          front (String.ofList cs) ++ (blanks ++ slashes) := by
  by_cases hne : slashes = []
  · exact .inl (by rw [hne, List.append_nil])
  · obtain ⟨blanks, hend, hclean⟩ := exists_clean_append_slashes cs hslashes hne
    have hmarks : ∀ c ∈ blanks ++ slashes,
        (!decide (c = '#')) = true ∧ (!decide (c = '?')) = true := by
      intro c hc
      rcases List.mem_append.1 hc with hc | hc
      · have hblank := hend.blank c hc
        constructor <;> rw [Bool.not_eq_true', decide_eq_false_iff_not] <;> rintro rfl <;>
          exact absurd hblank (by decide)
      · rw [hslashes c hc]
        decide
    obtain ⟨kept, hkept, hfragment⟩ :=
      takeWhile_append_of_forall (fun c hc ↦ (hmarks c hc).1) (clean cs)
    rw [front_ofList, front_ofList, hclean, hfragment]
    rcases hkept with rfl | rfl
    · exact .inl (by rw [List.append_nil])
    · obtain ⟨kept, hkept, hquery⟩ := takeWhile_append_of_forall (fun c hc ↦ (hmarks c hc).2)
        ((clean cs).takeWhile fun c ↦ !decide (c = '#'))
      rw [hquery]
      rcases hkept with rfl | rfl
      · exact .inl (List.append_nil _)
      · exact .inr ⟨blanks, hend, rfl⟩

/-! ### Texts -/

/-- The colon of a scheme stands before what may be left out. -/
theorem IsEnd.exists_eq_append {blanks slashes written rest : List Char}
    (hend : IsEnd blanks slashes)
    (h : cs ++ (blanks ++ slashes) = written ++ ':' :: rest) :
    ∃ rest', cs = written ++ ':' :: rest' ∧ rest = rest' ++ (blanks ++ slashes) := by
  have hcolon : ':' ∉ blanks ++ slashes := by
    rw [List.mem_append]
    rintro (hc | hc)
    · exact absurd (hend.blank ':' hc) (by decide)
    · exact absurd (hend.slash ':' hc) (by decide)
  rcases List.append_eq_append_iff.1 h with ⟨front, hwritten, htail⟩ | ⟨front, hcs, hrest⟩
  · exact absurd (htail ▸ List.mem_append_right front List.mem_cons_self) hcolon
  · rcases front with _ | ⟨c, front⟩
    · exact absurd (hrest ▸ List.mem_cons_self) hcolon
    · obtain ⟨rfl, rfl⟩ := List.cons_eq_cons.1 hrest
      exact ⟨front, hcs, rfl⟩

theorem absolute?_eq (hweb : isWebScheme scheme = true) (cs : List Char) :
    absolute? none scheme cs = (owned? scheme (skipSlashes cs)).map fun hier ↦ (hier, false) := by
  simp only [absolute?, isFileScheme_of_isWebScheme hweb, isSpecialScheme_of_isWebScheme hweb,
    if_true]
  rfl

/-- A hierarchy of the web that is read with blanks and slashes at its end is read without them. -/
theorem IsEnd.exists_hierarchy? {blanks slashes : List Char} (hend : IsEnd blanks slashes)
    {hier : Hierarchy} {keepsQuery : Bool}
    (h : hierarchy? none (cs ++ (blanks ++ slashes)) false = some (hier, keepsQuery))
    (hweb : isWebScheme hier.scheme = true) :
    ∃ hier', hierarchy? none cs false = some (hier', false) ∧
      hier'.scheme = hier.scheme ∧ hier'.authority = hier.authority := by
  unfold hierarchy? at h
  split at h
  · rename_i scheme rest hrest
    obtain rfl := scheme_of_absolute? h
    have hspecial := isSpecialScheme_of_isWebScheme hweb
    obtain ⟨written, hwritten, happend, hscheme⟩ := eq_append_of_scheme? hrest
    obtain ⟨rest', rfl, rfl⟩ := hend.exists_eq_append happend
    rw [absolute?_eq hweb] at h
    obtain ⟨found, hfound, hsame⟩ := Option.map_eq_some_iff.1 h
    cases hsame
    have howner : authority? hier.scheme (ownerText (skipSlashes rest')) = some hier.authority := by
      refine hend.authority?_ownerText hspecial ?_
      rw [← owned?_eq hspecial, hfound]
      rfl
    rw [← owned?_eq hspecial] at howner
    obtain ⟨hier', hhier', hauthority⟩ := Option.map_eq_some_iff.1 howner
    refine ⟨hier', ?_, (exists_of_owned? hhier').1, hauthority⟩
    rw [hierarchy?, scheme?_append hwritten, ← hscheme]
    dsimp only
    rw [absolute?_eq hweb, hhier']
    rfl
  · cases h

/-- **Slashes at the end of a text may be left out**: a text of the web is read without them too,
and it has the same scheme and the same owner. -/
theorem exists_parse?_of_append_slashes {slashes : List Char} (hslashes : ∀ c ∈ slashes, c = '/')
    {url : Url} (h : parse? none (String.ofList (cs ++ slashes)) = some url)
    (hweb : url.isWeb = true) : ∃ url', parse? none (String.ofList cs) = some url' ∧
      url'.scheme = url.scheme ∧ url'.authority = url.authority := by
  have hread := @map_hierarchy_parse?_eq none (by simp) (String.ofList (cs ++ slashes))
  have hread' := @map_hierarchy_parse?_eq none (by simp) (String.ofList cs)
  rw [h] at hread
  obtain ⟨⟨hier, keepsQuery⟩, hhier, hsame⟩ := Option.map_eq_some_iff.1 hread.symm
  obtain rfl : hier = url.hierarchy := hsame
  obtain ⟨hier', hhier', hscheme, hauthority⟩ : ∃ hier', (hierarchy? none (front (String.ofList cs))
      false).map Prod.fst = some hier' ∧ hier'.scheme = url.scheme ∧
        hier'.authority = url.authority := by
    rcases exists_front_append_slashes cs hslashes with hfront | ⟨blanks, hend, hfront⟩
    · rw [hfront] at hhier
      exact ⟨_, by rw [hhier]; rfl, rfl, rfl⟩
    · rw [hfront] at hhier
      obtain ⟨hier', hhier', hscheme, hauthority⟩ := hend.exists_hierarchy? hhier hweb
      exact ⟨hier', by rw [hhier']; rfl, hscheme, hauthority⟩
  rw [hhier'] at hread'
  obtain ⟨url', hurl', rfl⟩ := Option.map_eq_some_iff.1 hread'
  exact ⟨url', hurl', hscheme, hauthority⟩

end Url

end IndexSnapshot
