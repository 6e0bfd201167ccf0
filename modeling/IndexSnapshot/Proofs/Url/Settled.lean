import IndexSnapshot.Proofs.Url.Coding
import IndexSnapshot.Proofs.Url.Path

/-!
# Settled paths

The segments that resolving a path leaves are names in their final form (`isSettled_resolve`): they
are no dots, hold nothing that is still to be encoded and no slash, and the first one of a file is
not a drive in its other form. Such a path is written with a slash before each name and read as the
same names again (`IsSettled.resolve_pathText`). What has to be seen for this is that percent
encoding never makes a dot: the points of a segment are kept as they are, and the bytes that are
written as a percent sign and digits belong to other characters.
-/

namespace IndexSnapshot.Path

open Url (isPlain)

variable {special file : Bool} {scheme segment name path : List Char}
  {done names : List (List Char)}

/-! ### Dots -/

/-- A byte that is written as a point in percent encoding is the point. -/
theorem eq_of_lower_encodeByte {b : UInt8} (hhigh : (Percent.hexDigit (b.toNat / 16)).toLower = '2')
    (hlow : (Percent.hexDigit (b.toNat % 16)).toLower = 'e') : b = 46 := by
  have hdigits : ∀ n < 16, ((Percent.hexDigit n).toLower = '2' → n = 2) ∧
      ((Percent.hexDigit n).toLower = 'e' → n = 14) := by decide
  have hlt := b.toNat_lt
  have htwo := (hdigits (b.toNat / 16) (by omega)).1 hhigh
  have hfourteen := (hdigits (b.toNat % 16) (by omega)).2 hlow
  have hpoint : (46 : UInt8).toNat = 46 := rfl
  rw [← UInt8.toNat_inj, hpoint]
  omega

/-- **Percent encoding makes no dots**: a text that becomes dots has been them before. -/
theorem encode_eq_of_lower_eq {dots : List Char}
    (hdots : ∀ x y, ['%', x, y] <:+: dots → x = '2' ∧ y = 'e')
    (h : Text.lower (Percent.encode Percent.inPath segment) = dots) :
    Percent.encode Percent.inPath segment = segment := by
  rcases Percent.encode_eq_or_exists Percent.inPath segment with
    hsame | ⟨c, b, rest, hc, hbytes, hbyte⟩
  · exact hsame
  · have hlower := hbyte.map Char.toLower
    rw [show (Percent.encode Percent.inPath segment).map Char.toLower = dots from h] at hlower
    obtain ⟨hhigh, hlow⟩ := hdots _ _ hlower
    obtain rfl := eq_of_lower_encodeByte hhigh hlow
    -- the byte begins a character, which is the point then
    have hpoint : String.utf8EncodeChar c ++ [] = String.utf8EncodeChar '.' ++ rest := by
      rw [hbytes, List.append_nil]
      rfl
    obtain rfl := (Percent.utf8EncodeChar_append_inj hpoint).1
    cases hc

/-- The spellings of dots, of one and of two. -/
def dotSpellings : List String := [".", "%2e", "..", ".%2e", "%2e.", "%2e%2e"]

theorem of_mem_dotSpellings {dots : String} (h : dots ∈ dotSpellings) {x y : Char}
    (hin : ['%', x, y] <:+: dots.toList) : x = '2' ∧ y = 'e' := by
  simp only [dotSpellings, List.mem_cons, List.not_mem_nil, or_false] at h
  rcases h with rfl | rfl | rfl | rfl | rfl | rfl <;>
    simp [List.infix_cons_iff, List.cons_prefix_cons] at hin <;> exact hin

theorem any_encode {table : List String} (htable : ∀ dots ∈ table, dots ∈ dotSpellings)
    (h : (table.any fun dots ↦ dots.toList = Text.lower segment) = false) :
    (table.any fun dots ↦
      dots.toList = Text.lower (Percent.encode Percent.inPath segment)) = false := by
  rw [List.any_eq_false] at h ⊢
  intro dots hdots heq
  have hsame := encode_eq_of_lower_eq (fun x y ↦ of_mem_dotSpellings (htable dots hdots))
    (of_decide_eq_true heq).symm
  rw [hsame] at heq
  exact h dots hdots heq

/-! ### Names -/

/-- **A segment that is no dots is a name when it is encoded.** -/
theorem isName_encode (hdouble : isDoubleDot segment = false)
    (hsingle : isSingleDot segment = false) :
    IsName (Percent.encode Percent.inPath segment) where
  not_double := any_encode (by decide) hdouble
  not_single := any_encode (by decide) hsingle
  encode_eq := Percent.encode_of_forall fun _ ↦ Percent.inPath_of_mem_encode

theorem isName_drive {letter : Char} (h : letter.isAlpha = true) : IsName [letter, ':'] := by
  have hcode := Text.isAlpha_iff.1 h
  refine isName_of_forall (fun c hc ↦ ?_) (by simp) (by simp)
  simp only [List.mem_cons, List.not_mem_nil, or_false] at hc
  rcases hc with rfl | rfl
  · refine ⟨?_, ?_⟩
    · rintro rfl
      simp at hcode
    · simp only [Percent.inPath, Percent.inQuery, Percent.isControl, Bool.or_eq_false_iff,
        decide_eq_false_iff_not, ← Char.toNat_inj, Char.lt_def, UInt32.lt_iff_toNat_lt,
        Char.toNat_val, Char.reduceToNat]
      omega
  · decide

theorem isDriveLetter_iff : isDriveLetter segment = true ↔
    ∃ letter mark, segment = [letter, mark] ∧ letter.isAlpha = true ∧
      (mark = ':' ∨ mark = '|') := by
  unfold isDriveLetter
  split
  · simp
  · rename_i hlength
    simp only [Bool.false_eq_true, false_iff]
    rintro ⟨letter, mark, rfl, -⟩
    exact hlength letter mark rfl

theorem written_drive {letter mark : Char} (h : isDriveLetter [letter, mark] = true) :
    written true [] [letter, mark] = [letter, ':'] := by
  simp [written, h]

theorem written_eq_encode (h : (file && done.isEmpty && isDriveLetter segment) = false) :
    written file done segment = Percent.encode Percent.inPath segment := by
  unfold written
  rw [h]

/-- What is pushed is a drive in its usual form at the front of a file, and else an encoded
segment. -/
theorem written_cases (file : Bool) (done : List (List Char)) (segment : List Char) :
    (∃ letter mark, file = true ∧ done = [] ∧ segment = [letter, mark] ∧ letter.isAlpha = true ∧
        written file done segment = [letter, ':']) ∨
      (file && done.isEmpty && isDriveLetter segment) = false ∧
        written file done segment = Percent.encode Percent.inPath segment := by
  by_cases h : (file && done.isEmpty && isDriveLetter segment) = true
  · simp only [Bool.and_eq_true, List.isEmpty_iff] at h
    obtain ⟨⟨rfl, rfl⟩, hdrive⟩ := h
    obtain ⟨letter, mark, rfl, hletter, -⟩ := isDriveLetter_iff.1 hdrive
    exact .inl ⟨letter, mark, rfl, rfl, rfl, hletter, written_drive hdrive⟩
  · rw [Bool.not_eq_true] at h
    exact .inr ⟨h, written_eq_encode h⟩

/-! ### Settled paths -/

/-- The names of a path that are read as themselves, each at the place where it is. -/
structure IsSettled (special file : Bool) (names : List (List Char)) : Prop where
  isName_of_mem : ∀ name ∈ names, IsName name
  isSlash_of_mem : ∀ name ∈ names, ∀ c ∈ name, isSlash special c = false
  written_head : ∀ name ∈ names.head?, written file [] name = name

theorem isSettled_nil : IsSettled special file [] :=
  ⟨fun _ h ↦ absurd h List.not_mem_nil, fun _ h ↦ absurd h List.not_mem_nil,
    fun _ h ↦ absurd h (Option.not_mem_none _)⟩

namespace IsSettled

theorem of_isPrefix (h : IsSettled special file names) (hdone : done <+: names) :
    IsSettled special file done where
  isName_of_mem name hname := h.isName_of_mem name (hdone.subset hname)
  isSlash_of_mem name hname := h.isSlash_of_mem name (hdone.subset hname)
  written_head name hname := by
    obtain ⟨rest, rfl⟩ := List.head?_eq_some_iff.1 hname
    obtain ⟨more, rfl⟩ := hdone
    exact h.written_head name rfl

theorem concat (h : IsSettled special file done) (hname : IsName name)
    (hslash : ∀ c ∈ name, isSlash special c = false)
    (hwritten : done = [] → written file [] name = name) :
    IsSettled special file (done ++ [name]) where
  isName_of_mem other hother := by
    rcases List.mem_append.1 hother with hother | hother
    · exact h.isName_of_mem other hother
    · exact List.mem_singleton.1 hother ▸ hname
  isSlash_of_mem other hother := by
    rcases List.mem_append.1 hother with hother | hother
    · exact h.isSlash_of_mem other hother
    · exact List.mem_singleton.1 hother ▸ hslash
  written_head other hother := by
    rcases done with _ | ⟨first, done⟩
    · obtain rfl : name = other := Option.some.inj hother
      exact hwritten rfl
    · exact h.written_head other hother

/-- The empty name that a slash at the end of a path leaves. -/
theorem concat_nil (h : IsSettled special file done) : IsSettled special file (done ++ [[]]) :=
  h.concat isName_nil (fun _ hc ↦ absurd hc List.not_mem_nil) fun _ ↦ by
    rw [written_eq_encode (by simp [isDriveLetter])]
    rfl

end IsSettled

theorem shorten_isPrefix (file : Bool) (done : List (List Char)) : shorten file done <+: done := by
  unfold shorten
  split
  · split
    · exact List.prefix_rfl
    · exact List.nil_prefix
  · exact List.dropLast_prefix _

theorem isSlash_of_isAlphanum {c : Char} (h : c.isAlphanum = true) : isSlash special c = false := by
  rw [Text.isAlphanum_iff] at h
  simp only [isSlash, Bool.or_eq_false_iff, Bool.and_eq_false_iff, decide_eq_false_iff_not,
    ← Char.toNat_inj, Char.reduceToNat]
  omega

theorem isSlash_of_mem_encode (h : ∀ c ∈ segment, isSlash special c = false) {c : Char}
    (hc : c ∈ Percent.encode Percent.inPath segment) : isSlash special c = false := by
  rcases Percent.of_mem_encode hc with rfl | hc | ⟨hc, -⟩
  · cases special <;> rfl
  · exact isSlash_of_isAlphanum hc
  · exact h c hc

/-- An encoded segment that is a drive has been one before. -/
theorem isDriveLetter_encode (h : isDriveLetter (Percent.encode Percent.inPath segment) = true) :
    Percent.encode Percent.inPath segment = segment := by
  obtain ⟨letter, mark, heq, hletter, hmark⟩ := isDriveLetter_iff.1 h
  rcases Percent.encode_eq_or_exists Percent.inPath segment with hsame | ⟨c, b, rest, -, -, hbyte⟩
  · exact hsame
  · have hpercent : '%' ∈ Percent.encode Percent.inPath segment := hbyte.subset List.mem_cons_self
    rw [heq, List.mem_cons, List.mem_singleton] at hpercent
    rcases hpercent with rfl | rfl
    · cases hletter
    · rcases hmark with hmark | hmark <;> cases hmark

/-- **One more segment keeps a path settled.** -/
theorem isSettled_push (h : IsSettled special file done)
    (hslash : ∀ c ∈ segment, isSlash special c = false) (isLast : Bool) :
    IsSettled special file (push special file done segment isLast) := by
  have hshorten : IsSettled special file (shorten file done) := h.of_isPrefix (shorten_isPrefix _ _)
  unfold push
  split
  · split
    · exact hshorten.concat_nil
    · exact hshorten
  · rename_i hdouble
    split
    · split
      · exact h.concat_nil
      · exact h
    · rename_i hsingle
      rw [Bool.not_eq_true] at hdouble hsingle
      rcases written_cases file done segment with
        ⟨letter, mark, rfl, rfl, rfl, hletter, heq⟩ | ⟨hdrive, heq⟩
      · rw [heq]
        refine h.concat (isName_drive hletter) (fun c hc ↦ ?_) fun _ ↦ ?_
        · rcases List.mem_cons.1 hc with rfl | hc
          · exact isSlash_of_isAlphanum (by rw [Char.isAlphanum, hletter, Bool.true_or])
          · rw [List.mem_singleton.1 hc]
            cases special <;> rfl
        · exact written_drive (isDriveLetter_iff.2 ⟨letter, ':', rfl, hletter, .inl rfl⟩)
      · rw [heq]
        have hname := isName_encode hdouble hsingle
        refine h.concat hname (fun c ↦ isSlash_of_mem_encode hslash) ?_
        rintro rfl
        -- encoding makes no drive out of what was none
        rw [written_eq_encode, hname.encode_eq]
        by_contra hnot
        rw [Bool.not_eq_false, Bool.and_eq_true] at hnot
        rw [isDriveLetter_encode hnot.2] at hnot
        simp_all

theorem pushAll_cons_cons (next : List Char) (segments : List (List Char)) :
    pushAll special file done (segment :: next :: segments) =
      pushAll special file (push special file done segment false) (next :: segments) := rfl

theorem isSettled_pushAll {segments : List (List Char)} (h : IsSettled special file done)
    (hslash : ∀ segment ∈ segments, ∀ c ∈ segment, isSlash special c = false) :
    IsSettled special file (pushAll special file done segments) := by
  induction segments generalizing done with
  | nil => exact h
  | cons segment segments ih =>
    have hfirst := isSettled_push h (hslash segment List.mem_cons_self)
    rcases segments with _ | ⟨next, segments⟩
    · exact hfirst true
    · rw [pushAll_cons_cons]
      exact ih (hfirst false) fun other hother ↦ hslash other (List.mem_cons_of_mem _ hother)

/-- **Resolving leaves a settled path.** -/
theorem isSettled_resolve
    (h : IsSettled (Url.isSpecialScheme scheme) (Url.isFileScheme scheme) done) (path : List Char) :
    IsSettled (Url.isSpecialScheme scheme) (Url.isFileScheme scheme) (resolve scheme done path) :=
  isSettled_pushAll h fun _ hsegment _ hc ↦ (Text.of_mem_splitAtMarks hsegment hc).2

/-- Under a special scheme a path has a name. -/
theorem pushAll_ne_nil {segments : List (List Char)} (hne : segments ≠ []) :
    pushAll true file done segments ≠ [] := by
  induction segments generalizing done with
  | nil => exact absurd rfl hne
  | cons segment segments ih =>
    rcases segments with _ | ⟨next, segments⟩
    · exact push_last_ne_nil segment
    · rw [pushAll_cons_cons]
      exact ih (List.cons_ne_nil _ _)

theorem resolve_ne_nil_of_isSpecialScheme (h : Url.isSpecialScheme scheme = true)
    (path : List Char) : resolve scheme done path ≠ [] := by
  rw [resolve, h]
  exact pushAll_ne_nil (Text.splitAtMarks_ne_nil _ _)

/-! ### Settled paths are read back -/

namespace IsSettled

theorem push_eq (h : IsSettled special file (done ++ [name])) (isLast : Bool) :
    push special file done name isLast = done ++ [name] := by
  have hname := h.isName_of_mem name (List.mem_append_right done (List.mem_singleton_self name))
  have hwritten : written file done name = name := by
    rcases done with _ | ⟨first, done⟩
    · exact h.written_head name rfl
    · rw [written_eq_encode (by simp), hname.encode_eq]
  simp [push, hname.not_double, hname.not_single, hwritten]

/-- **Settled names are pushed as they are.** -/
theorem pushAll_eq (h : IsSettled special file (done ++ names)) :
    pushAll special file done names = done ++ names := by
  induction names generalizing done with
  | nil => exact (List.append_nil done).symm
  | cons name names ih =>
    rw [List.append_cons] at h ⊢
    have hpush := (h.of_isPrefix (List.prefix_append _ _)).push_eq
    rcases names with _ | ⟨next, names⟩
    · rw [List.append_nil]
      exact hpush true
    · rw [pushAll_cons_cons, hpush, ih h]

end IsSettled

/-- A path as it is written, without the slash at its front. -/
def pathText (name : List Char) (names : List (List Char)) : List Char :=
  name ++ names.flatMap fun name ↦ '/' :: name

theorem splitAtMarks_pathText (hname : ∀ c ∈ name, isSlash special c = false)
    (hnames : ∀ name ∈ names, ∀ c ∈ name, isSlash special c = false) :
    Text.splitAtMarks (isSlash special) (pathText name names) = name :: names := by
  have hmark : isSlash special '/' = true := rfl
  induction names generalizing name with
  | nil =>
    rw [pathText, List.flatMap_nil, List.append_nil, Text.splitAtMarks_of_forall hname]
  | cons next names ih =>
    rw [pathText, List.flatMap_cons, List.cons_append, Text.splitAtMarks_append_mark hmark,
      Text.splitAtMarks_of_forall hname, ← pathText, ih (hnames next List.mem_cons_self)
        fun other hother ↦ hnames other (List.mem_cons_of_mem next hother)]
    rfl

/-- **A settled path is read as the path.** -/
theorem IsSettled.resolve_pathText
    (h : IsSettled (Url.isSpecialScheme scheme) (Url.isFileScheme scheme) (name :: names)) :
    resolve scheme [] (pathText name names) = name :: names := by
  have hsplit := splitAtMarks_pathText (h.isSlash_of_mem name List.mem_cons_self)
    fun other hother ↦ h.isSlash_of_mem other (List.mem_cons_of_mem name hother)
  rw [resolve, hsplit]
  exact IsSettled.pushAll_eq h

theorem IsSettled.isPlain_of_mem (h : IsSettled special file names) (hname : name ∈ names)
    {c : Char}
    (hc : c ∈ name) : isPlain c = true := by
  rw [← (h.isName_of_mem name hname).encode_eq] at hc
  exact isPlain_of_mem_encode hc

end IndexSnapshot.Path
