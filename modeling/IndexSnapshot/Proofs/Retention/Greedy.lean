import IndexSnapshot.Proofs.Number.Whole
import IndexSnapshot.Proofs.Retention.Classes

/-!
# Retention is a greedy choice of classes

`greedy` walks over classes of the same version, from the newest to the oldest, and takes a class as
long as fewer than `k` newer ones are taken, an unstable one only while fewer than half of `k` newer
unstable ones are. `Retention.select` walks over files instead, with two counters and the version it
selected last. One class of files at a time (`select_append_class`), the files of a class that is
taken follow the first of them free of charge, and all files of a class that is passed over are
passed over for the same reason. So the walk over all classes is the greedy choice
(`select_flatten`); it ends where nothing more can be taken.

That the files of a class agree on what happens to them rests on same versions being equally stable,
which holds as long as no number of a version is past the range.
-/

namespace IndexSnapshot.Retention

open Version

/-! ### The greedy choice -/

/-- How many of the classes are not stable. -/
def unstableCount (cls : List (List Candidate)) : ℕ := cls.countP fun cl ↦ !isStableClass cl

/-- The classes taken among classes from the newest to the oldest, when some newer ones are taken
already: fewer than `k` in all, and fewer than half of `k`, rounded down, that are not stable. -/
def greedy (k : ℕ) (newer : List (List Candidate)) :
    List (List Candidate) → List (List Candidate)
  | [] => []
  | cl :: older =>
    if newer.length < k ∧ (isStableClass cl = true ∨ unstableCount newer < k / 2) then
      cl :: greedy k (newer ++ [cl]) older
    else greedy k newer older

variable {k : ℕ} {newer cls : List (List Candidate)}

/-- Once the budget is spent nothing more is taken. -/
theorem greedy_eq_nil_of_le (h : k ≤ newer.length) : greedy k newer cls = [] := by
  induction cls with
  | nil => rfl
  | cons cl cls ih => rw [greedy, if_neg fun hlt ↦ absurd hlt.1 (Nat.not_lt.2 h), ih]

theorem unstableCount_concat_of_stable {cl : List Candidate} (h : isStableClass cl = true) :
    unstableCount (newer ++ [cl]) = unstableCount newer := by
  simp [unstableCount, h]

theorem unstableCount_concat_of_unstable {cl : List Candidate} (h : isStableClass cl = false) :
    unstableCount (newer ++ [cl]) = unstableCount newer + 1 := by
  simp [unstableCount, h]

/-! ### The walk over files, class by class -/

variable {budget : Budget} {previous : Option Version} {selected unstable : ℕ}
  {cl rest : List Candidate}

/-- The files of the version selected last are kept free of charge. -/
theorem select_append_of_same {p : Version} (h : ∀ c ∈ cl, p.isSame c.version = true) :
    select budget (some p) selected unstable (cl ++ rest) =
      cl.map Candidate.artifact ++ select budget (some p) selected unstable rest := by
  induction cl with
  | nil => rfl
  | cons c cl ih =>
    have hsame : (some p).any (fun p ↦ p.isSame c.version) = true := h c List.mem_cons_self
    rw [List.cons_append, select, if_pos hsame, ih fun d hd ↦ h d (List.mem_cons_of_mem c hd)]
    rfl

/-- All files of a class are passed over for the same reason. -/
theorem select_append_of_full (hnew : ∀ c ∈ cl, previous.any (fun p ↦ p.isSame c.version) = false)
    (hunstable : ∀ c ∈ cl, c.version.isStable = false)
    (hselected : budget.keepRecent.reachedBy selected = false)
    (hfull : budget.keepRecent.halfFloor.reachedBy unstable = true) :
    select budget previous selected unstable (cl ++ rest) =
      select budget previous selected unstable rest := by
  induction cl with
  | nil => rfl
  | cons c cl ih =>
    rw [List.cons_append, select, hnew c List.mem_cons_self, hselected,
      hunstable c List.mem_cons_self, hfull]
    simpa using ih (fun d hd ↦ hnew d (List.mem_cons_of_mem c hd))
      fun d hd ↦ hunstable d (List.mem_cons_of_mem c hd)

/-- **What happens to the first file of a class happens to all of them.** -/
theorem select_append_class {c : Candidate}
    (hnew : ∀ d ∈ c :: cl, previous.any (fun p ↦ p.isSame d.version) = false)
    (hsame : ∀ d ∈ cl, c.version.isSame d.version = true)
    (hstable : ∀ d ∈ cl, d.version.isStable = c.version.isStable) :
    select budget previous selected unstable (c :: cl ++ rest) =
      if budget.keepRecent.reachedBy selected then []
      else if c.version.isStable then
        (c :: cl).map Candidate.artifact ++
          select budget (some c.version) (selected + 1) unstable rest
      else if budget.keepRecent.halfFloor.reachedBy unstable then
        select budget previous selected unstable rest
      else
        (c :: cl).map Candidate.artifact ++
          select budget (some c.version) (selected + 1) (unstable + 1) rest := by
  have hfirst : previous.any (fun p ↦ p.isSame c.version) ≠ true := by
    rw [hnew c List.mem_cons_self]
    exact Bool.false_ne_true
  rw [List.cons_append, select, if_neg hfirst]
  by_cases hspent : budget.keepRecent.reachedBy selected = true
  · rw [if_pos hspent, if_pos hspent]
  rw [if_neg hspent, if_neg hspent]
  by_cases hc : c.version.isStable = true
  · rw [if_pos hc, if_pos hc, select_append_of_same hsame]
    rfl
  rw [if_neg hc, if_neg hc]
  by_cases hfull : budget.keepRecent.halfFloor.reachedBy unstable = true
  · rw [if_pos hfull, if_pos hfull]
    refine select_append_of_full (fun d hd ↦ hnew d (List.mem_cons_of_mem c hd))
      (fun d hd ↦ (hstable d hd).trans (Bool.eq_false_iff.2 hc)) (Bool.eq_false_iff.2 hspent) hfull
  · rw [if_neg hfull, if_neg hfull, select_append_of_same hsame]
    rfl

/-- **The walk over files takes the classes of the greedy choice.** -/
theorem select_flatten (hk : budget.keepRecent.toInt? = some (k : ℤ)) (hcls : Grouping cls)
    (hstable : ∀ cl ∈ cls, ∀ c ∈ cl, c.version.isStable = isStableClass cl)
    (hprevious : ∀ c ∈ cls.flatten, previous.any (fun p ↦ p.isSame c.version) = false) :
    select budget previous newer.length (unstableCount newer) cls.flatten =
      (greedy k newer cls).flatten.map Candidate.artifact := by
  induction cls generalizing newer previous with
  | nil => rfl
  | cons cl cls ih =>
    obtain ⟨c, cl, rfl⟩ := List.exists_cons_of_ne_nil (hcls.ne_nil cl List.mem_cons_self)
    have hclass := hstable (c :: cl) List.mem_cons_self
    have hrest : ∀ cl' ∈ cls, ∀ d ∈ cl', d.version.isStable = isStableClass cl' :=
      fun cl' hcl' ↦ hstable cl' (List.mem_cons_of_mem _ hcl')
    have hpassed : select budget previous newer.length (unstableCount newer) cls.flatten =
        (greedy k newer cls).flatten.map Candidate.artifact :=
      ih hcls.of_cons hrest fun d hd ↦ hprevious d (List.mem_append_right _ hd)
    -- once the class is taken, its version is the one that no older class is of
    have htaken : select budget (some c.version) (newer.length + 1)
        (unstableCount (newer ++ [c :: cl])) cls.flatten =
          (greedy k (newer ++ [c :: cl]) cls).flatten.map Candidate.artifact := by
      have hlength : (newer ++ [c :: cl]).length = newer.length + 1 := List.length_append
      rw [← hlength]
      refine ih hcls.of_cons hrest fun d hd ↦ ?_
      rw [Option.any_some, isSame_comm]
      exact isSame_eq_false_of_lt (hcls.lt_of_mem List.mem_cons_self hd)
    rw [List.flatten_cons, select_append_class
      (fun d hd ↦ hprevious d (List.mem_append_left _ hd))
      (fun d hd ↦ hcls.same _ List.mem_cons_self c List.mem_cons_self d (List.mem_cons_of_mem c hd))
      (fun d hd ↦ (hclass d (List.mem_cons_of_mem c hd)).trans (hclass c List.mem_cons_self).symm),
      hclass c List.mem_cons_self, greedy]
    by_cases hspent : k ≤ newer.length
    · rw [if_pos ((Binary64.reachedBy_iff hk _).2 hspent),
        if_neg fun h ↦ absurd h.1 (Nat.not_lt.2 hspent), greedy_eq_nil_of_le hspent]
      rfl
    rw [if_neg (mt (Binary64.reachedBy_iff hk _).1 hspent)]
    cases hclstable : isStableClass (c :: cl) with
    | true =>
      rw [unstableCount_concat_of_stable hclstable] at htaken
      rw [if_pos rfl, if_pos ⟨Nat.lt_of_not_le hspent, .inl rfl⟩, htaken, List.flatten_cons,
        List.map_append]
    | false =>
      rw [unstableCount_concat_of_unstable hclstable] at htaken
      rw [if_neg Bool.false_ne_true]
      by_cases hfull : k / 2 ≤ unstableCount newer
      · rw [if_pos ((Binary64.halfFloor_reachedBy_iff hk _).2 hfull), if_neg (by simp [hfull]),
          hpassed]
      · rw [if_neg (mt (Binary64.halfFloor_reachedBy_iff hk _).1 hfull),
          if_pos ⟨Nat.lt_of_not_le hspent, .inr (Nat.lt_of_not_le hfull)⟩, htaken,
          List.flatten_cons, List.map_append]

/-! ### Files whose versions are known -/

theorem unknown_eq_nil {artifacts : List Artifact}
    (h : ∀ a ∈ artifacts, ∃ v ∈ Distribution.version? a.filename, v.IsFinite) :
    unknown artifacts = [] := by
  refine List.filter_eq_nil_iff.2 fun a ha hnone ↦ ?_
  obtain ⟨v, hv, -⟩ := h a ha
  rw [Option.mem_def.1 hv] at hnone
  cases hnone

/-- The candidates are the files in their order, each with the version that its name tells. There
are no other candidates of the files. -/
structure AreCandidates (artifacts : List Artifact) (cs : List Candidate) : Prop where
  map_artifact : cs.map Candidate.artifact = artifacts
  version? : ∀ c ∈ cs, Distribution.version? c.artifact.filename = some c.version

/-- Files that tell the versions they are said to be of are candidates of these versions. -/
theorem candidates_map_artifact {cs : List Candidate}
    (h : ∀ c ∈ cs, Distribution.version? c.artifact.filename = some c.version) :
    candidates (cs.map Candidate.artifact) = cs := by
  induction cs with
  | nil => rfl
  | cons c cs ih =>
    have hc := h c List.mem_cons_self
    have hcs := ih fun d hd ↦ h d (List.mem_cons_of_mem c hd)
    rw [candidates] at hcs ⊢
    rw [List.map_cons, List.filterMap_cons, hc, hcs]
    rfl

/-- A candidate holds the version that its file name tells. -/
theorem version?_of_mem_candidates {artifacts : List Artifact} {c : Candidate}
    (h : c ∈ candidates artifacts) :
    c.artifact ∈ artifacts ∧ Distribution.version? c.artifact.filename = some c.version := by
  obtain ⟨a, ha, hc⟩ := List.mem_filterMap.1 h
  obtain ⟨v, hv, rfl⟩ := Option.map_eq_some_iff.1 hc
  exact ⟨ha, hv⟩

/-- **All files are candidates** when all versions are known. -/
theorem areCandidates_candidates {artifacts : List Artifact}
    (h : ∀ a ∈ artifacts, ∃ v ∈ Distribution.version? a.filename, v.IsFinite) :
    AreCandidates artifacts (candidates artifacts) where
  map_artifact := by
    induction artifacts with
    | nil => rfl
    | cons a artifacts ih =>
      obtain ⟨⟨v, hv, -⟩, h⟩ := List.forall_mem_cons.1 h
      have hrest := ih h
      rw [candidates] at hrest ⊢
      rw [List.filterMap_cons_some (b := ⟨a, v⟩) (by rw [Option.mem_def.1 hv]; rfl), List.map_cons,
        hrest]
  version? _ hc := (version?_of_mem_candidates hc).2

theorem isFinite_of_mem_candidates {artifacts : List Artifact} {c : Candidate}
    (h : ∀ a ∈ artifacts, ∃ v ∈ Distribution.version? a.filename, v.IsFinite)
    (hc : c ∈ candidates artifacts) : c.version.IsFinite := by
  obtain ⟨ha, hversion⟩ := version?_of_mem_candidates hc
  obtain ⟨v, hv, hfinite⟩ := h c.artifact ha
  rw [Option.mem_def, hversion] at hv
  rwa [Option.some.inj hv]

theorem mem_of_mem_classes {cs cl : List Candidate} {c : Candidate} (hcl : cl ∈ classes cs)
    (hc : c ∈ cl) : c ∈ cs :=
  (newestFirst_perm cs).mem_iff.1
    (flatten_classes cs ▸ List.mem_flatten.2 ⟨cl, hcl, hc⟩)

/-- **A class is stable or unstable as a whole**, as long as no number is past the range. -/
theorem isStable_eq_isStableClass {cs : List Candidate} (hfinite : ∀ c ∈ cs, c.version.IsFinite) :
    ∀ cl ∈ classes cs, ∀ c ∈ cl, c.version.isStable = isStableClass cl := by
  intro cl hcl c hc
  have hagree : ∀ d ∈ cl, d.version.isStable = c.version.isStable := by
    intro d hd
    exact isStable_eq_of_isSame (hfinite d (mem_of_mem_classes hcl hd))
      (hfinite c (mem_of_mem_classes hcl hc)) ((grouping_classes cs).same cl hcl d hd c hc)
  rw [Bool.eq_iff_iff, isStableClass, List.all_eq_true]
  exact ⟨fun h d hd ↦ (hagree d hd).trans h, fun h ↦ h c hc⟩

/-- The files kept of candidates are the greedy choice among their classes. -/
theorem keep_eq_greedy {budget : Budget} {cs : List Candidate}
    (hk : budget.keepRecent.toInt? = some (k : ℤ)) (hfinite : ∀ c ∈ cs, c.version.IsFinite) :
    keep budget cs = (greedy k [] (classes cs)).flatten.map Candidate.artifact := by
  have hwalk : select budget none ([] : List (List Candidate)).length (unstableCount [])
      (classes cs).flatten = (greedy k [] (classes cs)).flatten.map Candidate.artifact :=
    select_flatten hk (grouping_classes cs) (isStable_eq_isStableClass hfinite) fun _ _ ↦ rfl
  rwa [flatten_classes] at hwalk

/-- What becomes of files whose versions are known and finite. -/
theorem truncate_of_known (packageName : String) {budget : Budget} {artifacts : List Artifact}
    (hk : budget.keepRecent.toInt? = some (k : ℤ))
    (hknown : ∀ a ∈ artifacts, ∃ v ∈ Distribution.version? a.filename, v.IsFinite) :
    truncate packageName budget artifacts =
      ((greedy k [] (classes (candidates artifacts))).flatten.map Candidate.artifact, []) := by
  rw [truncate, unknown_eq_nil hknown]
  exact Prod.ext (keep_eq_greedy hk fun c hc ↦ isFinite_of_mem_candidates hknown hc) rfl

/-- **Retention is the greedy choice of classes.** When all versions are known and their numbers
are finite, the files are classed by the versions that their names tell, and those kept are the
files of the classes taken, the newest class first and each class with all of its files in the
reverse of the order given; nothing is logged. A number of at most 308 digits is finite
(`Magnitude.ofDigits_ne_infinite`). -/
theorem truncate_eq_greedy (packageName : String) {budget : Budget} {artifacts : List Artifact}
    (hk : budget.keepRecent.toInt? = some (k : ℤ))
    (hknown : ∀ a ∈ artifacts, ∃ v ∈ Distribution.version? a.filename, v.IsFinite) :
    ∃ cs, AreCandidates artifacts cs ∧ truncate packageName budget artifacts =
      ((greedy k [] (classes cs)).flatten.map Candidate.artifact, []) :=
  ⟨candidates artifacts, areCandidates_candidates hknown,
    truncate_of_known packageName hk hknown⟩

def sampleFile (name : String) : Artifact := ⟨"https://host/packages/" ++ name, name⟩

/-- Files of five versions, two of them pre-releases and one version written in two ways. -/
def sampleFiles : List Artifact :=
  ["qux-1.0.tar.gz", "qux-2.0rc1.tar.gz", "qux-1.1.tar.gz", "qux-1.0.0-py3-none-any.whl",
    "qux-2.0a1.tar.gz", "qux-0.9.tar.gz"].map sampleFile

def sampleBudget : Budget := ⟨.ofNat 3⟩

/-- The files of three of the five versions, one of them a pre-release. -/
def keptFiles : List Artifact :=
  ["qux-2.0rc1.tar.gz", "qux-1.1.tar.gz", "qux-1.0.0-py3-none-any.whl", "qux-1.0.tar.gz"].map
    sampleFile

theorem sampleFiles_known :
    ∀ a ∈ sampleFiles, ∃ v ∈ Distribution.version? a.filename, v.IsFinite := by
  decide +kernel

theorem sampleBudget_whole : sampleBudget.keepRecent.toInt? = some ((3 : ℕ) : ℤ) := by
  decide +kernel

theorem truncate_eq_keptFiles : truncate "qux" sampleBudget sampleFiles = (keptFiles, []) := by
  have hkeep : keep sampleBudget (candidates sampleFiles) = keptFiles := by
    rw [keep, newestFirst, sortOldestFirst_eq_insertionSort]
    decide +kernel
  rw [truncate, unknown_eq_nil sampleFiles_known, ← hkeep]

theorem truncate_sampleFiles :
    sampleBudget.keepRecent.toInt? = some ((3 : ℕ) : ℤ) ∧
      (∀ a ∈ sampleFiles, ∃ v ∈ Distribution.version? a.filename, v.IsFinite) ∧
      truncate "qux" sampleBudget sampleFiles = (keptFiles, []) ∧
      ∃ cs, AreCandidates sampleFiles cs ∧
        (greedy 3 [] (classes cs)).flatten.map Candidate.artifact = keptFiles := by
  obtain ⟨cs, hcs, hkept⟩ := truncate_eq_greedy "qux" sampleBudget_whole sampleFiles_known
  rw [truncate_eq_keptFiles] at hkept
  exact ⟨sampleBudget_whole, sampleFiles_known, truncate_eq_keptFiles, cs, hcs,
    (congrArg Prod.fst hkept).symm⟩

end IndexSnapshot.Retention
