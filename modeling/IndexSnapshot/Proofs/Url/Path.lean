import IndexSnapshot.Proofs.Url.Reading

/-!
# Resolved paths

Every segment but the last is pushed in the same way (`walk`), so that a path is resolved part by
part: what stands before its last slash leads to a directory (`directory`), and a place in it stays
behind that as it is (`flatMap_resolve_append`). Names are neither dots nor in need of percent
encoding then; a walk that gives back what it started from in two rounds has done so in one
(`directory_eq_of_directory`), since a round that meets dots leaves fewer names.
-/

namespace IndexSnapshot.Path

open Url (isPlain isPlain_of_not_inPath)

variable {special : Bool} {scheme : List Char} {done : List (List Char)}

/-- A segment that stands for itself. -/
structure IsName (segment : List Char) : Prop where
  not_double : isDoubleDot segment = false
  not_single : isSingleDot segment = false
  encode_eq : Percent.encode Percent.inPath segment = segment

/-- The empty segment, which is what a path has behind a slash at its end, stands for itself. -/
theorem isName_nil : IsName [] := ⟨by decide, by decide, rfl⟩

/-- A segment is taken for dots only if it is dots or has a percent sign in it. -/
theorem isName_of_forall {segment : List Char}
    (h : ∀ c ∈ segment, c ≠ '%' ∧ Percent.inPath c = false) (hsingle : segment ≠ ['.'])
    (hdouble : segment ≠ ['.', '.']) : IsName segment := by
  -- points are no letters, so that it makes no difference to compare letters of either size
  have hlower : ∀ dots : List Char, dots.all (· = '.') = true →
      Text.lower segment = dots → segment = dots := by
    intro dots hdots heq
    have hmem : ∀ c ∈ segment, c.toLower = c := by
      intro c hc
      have hc : c.toLower ∈ dots := heq ▸ List.mem_map_of_mem hc
      have hdot : c.toLower = '.' := of_decide_eq_true (List.all_eq_true.1 hdots _ hc)
      rw [hdot, (Text.toLower_eq_iff (by decide)).1 hdot]
    rw [← heq, Text.lower, List.map_congr_left hmem, List.map_id']
  have hpercent : '%' ∉ Text.lower segment := by
    intro hmem
    obtain ⟨c, hc, heq⟩ := List.mem_map.1 hmem
    exact (h c hc).1 ((Text.toLower_eq_iff (by decide)).1 heq)
  refine ⟨?_, ?_, Percent.encode_of_forall fun c hc ↦ (h c hc).2⟩
  · rw [isDoubleDot, List.any_eq_false]
    intro dots hdots heq
    have heq := of_decide_eq_true heq
    simp only [List.mem_cons, List.not_mem_nil, or_false] at hdots
    rcases hdots with rfl | rfl | rfl | rfl
    · exact hdouble (hlower _ (by decide) heq.symm)
    all_goals exact hpercent (heq ▸ by decide)
  · rw [isSingleDot, List.any_eq_false]
    intro dots hdots heq
    have heq := of_decide_eq_true heq
    simp only [List.mem_cons, List.not_mem_nil, or_false] at hdots
    rcases hdots with rfl | rfl
    · exact hsingle (hlower _ (by decide) heq.symm)
    · exact hpercent (heq ▸ by decide)

/-! ### Steps -/

theorem push_of_isName {segment : List Char} (h : IsName segment) (isLast : Bool) :
    push special false done segment isLast = done ++ [segment] := by
  simp [push, h.not_double, h.not_single, written, h.encode_eq]

/-- Dots leave no more names than there were, and all else is pushed. -/
theorem push_cases (special : Bool) (done : List (List Char)) (segment : List Char) :
    (push special false done segment false).length ≤ done.length ∨
      push special false done segment false = done ++ [Percent.encode Percent.inPath segment] := by
  by_cases hdouble : isDoubleDot segment = true
  · exact .inl (by simp [push, hdouble, shorten])
  · by_cases hsingle : isSingleDot segment = true
    · exact .inl (by simp [push, hdouble, hsingle])
    · exact .inr (by simp [push, hdouble, hsingle, written])

/-- What a step leaves on the stack: what was there, and what it pushes. -/
theorem mem_push {segment name : List Char} {isLast : Bool}
    (h : name ∈ push special false done segment isLast) :
    name ∈ done ∨ name = [] ∨ name = Percent.encode Percent.inPath segment := by
  have hshorten : ∀ name ∈ shorten false done, name ∈ done := fun name hname ↦
    List.dropLast_sublist done |>.subset hname
  unfold push at h
  split_ifs at h
  · rcases List.mem_append.1 h with h | h
    · exact .inl (hshorten name h)
    · exact .inr (.inl (List.mem_singleton.1 h))
  · exact .inl (hshorten name h)
  · rcases List.mem_append.1 h with h | h
    · exact .inl h
    · exact .inr (.inl (List.mem_singleton.1 h))
  · exact .inl h
  · rcases List.mem_append.1 h with h | h
    · exact .inl h
    · exact .inr (.inr (List.mem_singleton.1 h))

/-- Under a special scheme the last segment of a path always leaves one on the stack. -/
theorem push_last_ne_nil {file : Bool} (segment : List Char) :
    push true file done segment true ≠ [] := by
  unfold push
  split_ifs <;> simp_all

/-! ### Walks -/

/-- The stack after segments that do not end a path. -/
def walk (special : Bool) (done segments : List (List Char)) : List (List Char) :=
  segments.foldl (fun done segment ↦ push special false done segment false) done

theorem walk_cons (segment : List Char) (segments : List (List Char)) :
    walk special done (segment :: segments) =
      walk special (push special false done segment false) segments := rfl

theorem length_walk_le (special : Bool) (done segments : List (List Char)) :
    (walk special done segments).length ≤ done.length + segments.length := by
  induction segments generalizing done with
  | nil => exact Nat.le_refl _
  | cons segment segments ih =>
    have hle := ih (push special false done segment false)
    rw [walk_cons, List.length_cons]
    rcases push_cases special done segment with hdots | hpush
    · omega
    · rw [hpush, List.length_append, List.length_singleton] at hle
      rw [hpush]
      omega

/-- **A walk that leaves a name for every segment** has met no dots. -/
theorem walk_eq_of_length_eq {segments : List (List Char)}
    (h : (walk special done segments).length = done.length + segments.length) :
    walk special done segments = done ++ segments.map (Percent.encode Percent.inPath) := by
  induction segments generalizing done with
  | nil => exact (List.append_nil done).symm
  | cons segment segments ih =>
    have hle := length_walk_le special (push special false done segment false) segments
    rw [walk_cons, List.length_cons] at h
    rcases push_cases special done segment with hdots | hpush
    · omega
    · rw [hpush] at h
      rw [walk_cons, hpush, ih (by rw [h, List.length_append, List.length_singleton]; omega),
        List.append_assoc]
      rfl

/-- What a property of names needs to hold of all names after a walk. -/
theorem forall_mem_walk {P : List Char → Prop} (hnil : P []) {segments : List (List Char)}
    (hencode : ∀ segment ∈ segments, P (Percent.encode Percent.inPath segment))
    (hdone : ∀ name ∈ done, P name) : ∀ name ∈ walk special done segments, P name := by
  induction segments generalizing done with
  | nil => exact hdone
  | cons segment segments ih =>
    refine ih (fun other hother ↦ hencode other (List.mem_cons_of_mem segment hother)) ?_
    intro name hname
    rcases mem_push hname with h | rfl | rfl
    · exact hdone name h
    · exact hnil
    · exact hencode segment List.mem_cons_self

/-- **Two rounds that give the segments back** are one round. -/
theorem walk_eq_of_walk_walk {segments : List (List Char)}
    (h : walk special [] (walk special [] segments) = segments) :
    walk special [] segments = segments := by
  have hencoded : ∀ name ∈ segments, ∀ c ∈ name, Percent.inPath c = false := by
    rw [← h]
    exact forall_mem_walk (fun c hc ↦ absurd hc List.not_mem_nil)
      (fun segment _ c ↦ Percent.inPath_of_mem_encode)
      (fun name hname ↦ absurd hname List.not_mem_nil)
  -- the first round has met no dots: names that are lost in it do not come back in the second
  have hfirst := length_walk_le special [] segments
  have hsecond := length_walk_le special [] (walk special [] segments)
  rw [h, List.length_nil] at hsecond
  rw [walk_eq_of_length_eq (by rw [List.length_nil] at hfirst ⊢; omega), List.nil_append]
  have hsame : ∀ name ∈ segments, Percent.encode Percent.inPath name = name := fun name hname ↦
    Percent.encode_of_forall (hencoded name hname)
  rw [List.map_congr_left hsame, List.map_id']

/-! ### Runs -/

theorem pushAll_append (segments : List (List Char)) {rest : List (List Char)} (hrest : rest ≠ []) :
    pushAll special false done (segments ++ rest) =
      pushAll special false (walk special done segments) rest := by
  induction segments generalizing done with
  | nil => rfl
  | cons segment segments ih =>
    have hne : segments ++ rest ≠ [] := List.append_ne_nil_of_right_ne_nil _ hrest
    obtain ⟨next, tail, htail⟩ := List.exists_cons_of_ne_nil hne
    have ih := @ih (push special false done segment false)
    rw [htail] at ih
    rw [List.cons_append, htail, pushAll, ih, walk_cons]
    exact List.cons_ne_nil _ _

/-- Names are pushed as they are. -/
theorem pushAll_of_forall {names : List (List Char)} (h : ∀ name ∈ names, IsName name) :
    pushAll special false done names = done ++ names := by
  induction names generalizing done with
  | nil => exact (List.append_nil done).symm
  | cons name names ih =>
    have hname := h name List.mem_cons_self
    cases names with
    | nil => exact push_of_isName hname true
    | cons next names =>
      have hrest : ∀ name ∈ next :: names, IsName name := fun name hname ↦
        h name (List.mem_cons_of_mem _ hname)
      rw [pushAll, push_of_isName hname, ih hrest, List.append_assoc]
      · rfl
      · exact List.cons_ne_nil _ _

/-! ### Paths of pages -/

theorem resolve_eq (hweb : Url.isWebScheme scheme = true) (path : List Char) :
    resolve scheme done path = pushAll true false done (Text.splitAtMarks (isSlash true) path) := by
  rw [resolve, Url.isSpecialScheme_of_isWebScheme hweb, Url.isFileScheme_of_isWebScheme hweb]

/-- All segments but the last are walked, and the last one leaves a name. -/
theorem exists_resolve_eq (hweb : Url.isWebScheme scheme = true) (path : List Char) :
    ∃ segments last,
      resolve scheme [] path = push true false (walk true [] segments) last true := by
  have hne := Text.splitAtMarks_ne_nil (isSlash true) path
  refine ⟨(Text.splitAtMarks (isSlash true) path).dropLast,
    (Text.splitAtMarks (isSlash true) path).getLast hne, ?_⟩
  rw [resolve_eq hweb]
  conv_lhs => rw [← List.dropLast_concat_getLast hne]
  rw [pushAll_append _ (List.cons_ne_nil _ _)]
  rfl

theorem resolve_ne_nil (hweb : Url.isWebScheme scheme = true) (path : List Char) :
    resolve scheme [] path ≠ [] := by
  obtain ⟨segments, last, heq⟩ := exists_resolve_eq hweb path
  rw [heq]
  exact push_last_ne_nil last

theorem isPlain_of_mem_encode {segment : List Char} {c : Char}
    (hc : c ∈ Percent.encode Percent.inPath segment) : isPlain c = true :=
  isPlain_of_not_inPath (Percent.inPath_of_mem_encode hc)

theorem isPlain_of_mem_walk (segments : List (List Char)) :
    ∀ name ∈ walk true [] segments, ∀ c ∈ name, isPlain c = true :=
  forall_mem_walk (P := fun name ↦ ∀ c ∈ name, isPlain c = true)
    (fun _ hc ↦ absurd hc List.not_mem_nil) (fun _ _ _ ↦ isPlain_of_mem_encode)
    (fun _ hname ↦ absurd hname List.not_mem_nil)

/-- Resolved paths have plain characters only. -/
theorem isPlain_of_mem_resolve (hweb : Url.isWebScheme scheme = true) {path name : List Char}
    (hname : name ∈ resolve scheme [] path) {c : Char} (hc : c ∈ name) : isPlain c = true := by
  obtain ⟨segments, last, heq⟩ := exists_resolve_eq hweb path
  rw [heq] at hname
  rcases mem_push hname with hname | rfl | rfl
  · exact isPlain_of_mem_walk segments name hname c hc
  · exact absurd hc List.not_mem_nil
  · exact isPlain_of_mem_encode hc

/-! ### Directories -/

/-- A plain path that ends in a slash, the one at its front left out; or nothing. -/
structure IsDirectory (path : List Char) : Prop where
  isPlain_of_mem : ∀ c ∈ path, isPlain c = true
  ends : path = [] ∨ path.getLast? = some '/'

/-- A plain path whose segments stand for themselves. -/
structure IsPlace (path : List Char) : Prop where
  isPlain_of_mem : ∀ c ∈ path, isPlain c = true
  eq_of_isSlash : ∀ c ∈ path, isSlash true c = true → c = '/'
  isName_of_mem : ∀ name ∈ Text.splitAtMarks (isSlash true) path, IsName name

/-- Nothing is the place of the directory itself. -/
theorem isPlace_nil : IsPlace [] :=
  ⟨fun _ hc ↦ absurd hc List.not_mem_nil, fun _ hc ↦ absurd hc List.not_mem_nil,
    fun _ hname ↦ List.mem_singleton.1 hname ▸ isName_nil⟩

/-- The names of a directory in its written form. -/
def directoryText (names : List (List Char)) : List Char := names.flatMap (· ++ ['/'])

/-- The directory that a written directory leads to. -/
def directory (path : List Char) : List Char :=
  directoryText (walk true [] (Text.splitAtMarks (isSlash true) path).dropLast)

theorem cons_directoryText (names : List (List Char)) :
    '/' :: directoryText names = (names.flatMap fun name ↦ '/' :: name) ++ ['/'] := by
  induction names with
  | nil => rfl
  | cons name names ih =>
    rw [directoryText] at ih ⊢
    rw [List.flatMap_cons, List.append_assoc, List.singleton_append, ih]
    simp

theorem isDirectory_directoryText {names : List (List Char)}
    (h : ∀ name ∈ names, ∀ c ∈ name, isPlain c = true) : IsDirectory (directoryText names) := by
  refine ⟨fun c hc ↦ ?_, ?_⟩
  · obtain ⟨name, hname, hc⟩ := List.mem_flatMap.1 hc
    rcases List.mem_append.1 hc with hc | hc
    · exact h name hname c hc
    · rw [List.mem_singleton.1 hc]
      rfl
  · rcases List.eq_nil_or_concat names with rfl | ⟨front, last, rfl⟩
    · exact .inl rfl
    · exact .inr (by simp [directoryText])

theorem splitAtMarks_directoryText {names : List (List Char)}
    (h : ∀ name ∈ names, ∀ c ∈ name, isSlash true c = false) :
    Text.splitAtMarks (isSlash true) (directoryText names) = names ++ [[]] := by
  induction names with
  | nil => rfl
  | cons name names ih =>
    have hname := Text.splitAtMarks_of_forall (h name List.mem_cons_self)
    have ih := ih fun other hother ↦ h other (List.mem_cons_of_mem name hother)
    rw [directoryText] at ih ⊢
    rw [List.flatMap_cons, List.append_assoc, List.singleton_append,
      Text.splitAtMarks_append_mark rfl, hname, ih]
    rfl

theorem splitAtMarks_append {path : List Char} (h : IsDirectory path) (place : List Char) :
    Text.splitAtMarks (isSlash true) (path ++ place) =
      (Text.splitAtMarks (isSlash true) path).dropLast ++
        Text.splitAtMarks (isSlash true) place := by
  rcases h.ends with rfl | h
  · rfl
  · obtain ⟨front, rfl⟩ := List.getLast?_eq_some_iff.1 h
    have hfront : Text.splitAtMarks (isSlash true) (front ++ ['/']) =
        Text.splitAtMarks (isSlash true) front ++ [[]] := Text.splitAtMarks_append_mark rfl front []
    rw [hfront, List.dropLast_concat, List.append_assoc, List.singleton_append,
      Text.splitAtMarks_append_mark rfl]

/-- **A place in a directory is resolved on what the directory leads to.** -/
theorem flatMap_resolve_append (hweb : Url.isWebScheme scheme = true) {path place : List Char}
    (hpath : IsDirectory path) (hplace : IsPlace place) :
    ((resolve scheme [] (path ++ place)).flatMap fun name ↦ '/' :: name) =
      '/' :: (directory path ++ place) := by
  rw [resolve_eq hweb, splitAtMarks_append hpath, pushAll_append _ (Text.splitAtMarks_ne_nil _ _),
    pushAll_of_forall hplace.isName_of_mem, List.flatMap_append,
    Text.flatMap_slash_splitAtMarks hplace.eq_of_isSlash,
    ← List.singleton_append, ← List.append_assoc, ← cons_directoryText]
  rfl

theorem isDirectory_directory (path : List Char) : IsDirectory (directory path) :=
  isDirectory_directoryText (isPlain_of_mem_walk _)

/-- Names of directories have no slashes. -/
theorem isSlash_of_mem_walk (path : List Char) :
    ∀ name ∈ walk true [] (Text.splitAtMarks (isSlash true) path).dropLast,
      ∀ c ∈ name, isSlash true c = false := by
  refine forall_mem_walk (P := fun name ↦ ∀ c ∈ name, isSlash true c = false)
    (fun c hc ↦ absurd hc List.not_mem_nil) (fun segment hsegment c hc ↦ ?_)
    (fun name hname ↦ absurd hname List.not_mem_nil)
  rcases Percent.of_mem_encode hc with rfl | hc | ⟨hc, -⟩
  · rfl
  · exact Url.isSlash_of_isOwn (Url.isOwn_of_isAlphanum hc)
  · exact (Text.of_mem_splitAtMarks ((List.dropLast_sublist _).subset hsegment) hc).2

theorem splitAtMarks_directory (path : List Char) :
    Text.splitAtMarks (isSlash true) (directory path) =
      walk true [] (Text.splitAtMarks (isSlash true) path).dropLast ++ [[]] :=
  splitAtMarks_directoryText (isSlash_of_mem_walk path)

/-- **Two rounds that give a directory back** are one round. -/
theorem directory_eq_of_directory {path : List Char} (h : directory (directory path) = path) :
    directory path = path := by
  have hsplit := splitAtMarks_directory (directory path)
  rw [h, splitAtMarks_directory path, List.dropLast_concat] at hsplit
  have hwalk : walk true [] (Text.splitAtMarks (isSlash true) path).dropLast =
      (Text.splitAtMarks (isSlash true) path).dropLast := by
    refine walk_eq_of_walk_walk ?_
    conv_rhs => rw [hsplit, List.dropLast_concat]
  have htwice : directory (directory path) = directory path := by
    conv_lhs => rw [directory, splitAtMarks_directory, List.dropLast_concat, hwalk, hwalk]
    rw [directory, hwalk]
  exact htwice.symm.trans h

end IndexSnapshot.Path
