import IndexSnapshot.Proofs.Retention.Greedy

/-!
# What retention does with a package

Retention decides about a package as a whole (`Verdict`). One file whose name tells no version is
enough for it to give up: all files come back as they were, and the log gets a record for each such
file and a last one for the package. Otherwise nothing is logged, and the files that come back are
some of those given, from the newest version to the oldest.

The second case holds of every budget, be it zero, negative, broken or no number at all. The walk
takes some of the candidates as they stand (`select_sublist`), and they stand in order before it
begins.
-/

namespace IndexSnapshot.Retention

open Version

variable {budget : Budget} {previous : Option Version} {selected unstable : ℕ} {cs : List Candidate}
  {artifacts : List Artifact}

/-! ### The walk over files -/

/-- **The walk takes some of the candidates, in their order.** -/
theorem select_sublist : (select budget previous selected unstable cs).Sublist
    (cs.map Candidate.artifact) := by
  induction cs generalizing previous selected unstable with
  | nil => exact .slnil
  | cons c cs ih =>
    rw [select, List.map_cons]
    split_ifs with hsame hspent hstable hfull
    · exact ih.cons_cons c.artifact
    · exact List.nil_sublist _
    · exact ih.cons_cons c.artifact
    · exact ih.cons c.artifact
    · exact ih.cons_cons c.artifact

theorem map_artifact_candidates_sublist (artifacts : List Artifact) :
    ((candidates artifacts).map Candidate.artifact).Sublist artifacts := by
  induction artifacts with
  | nil => exact .slnil
  | cons a artifacts ih =>
    rw [candidates] at ih ⊢
    cases hversion : Distribution.version? a.filename with
    | none =>
      rw [List.filterMap_cons_none (by rw [hversion]; rfl)]
      exact ih.cons a
    | some v =>
      rw [List.filterMap_cons_some (by rw [hversion]; rfl), List.map_cons]
      exact ih.cons_cons a

/-- No file is made up, and none is kept more often than it is given. -/
theorem keep_candidates_subperm (budget : Budget) (artifacts : List Artifact) :
    (keep budget (candidates artifacts)).Subperm artifacts := by
  have hwalk : (keep budget (candidates artifacts)).Subperm
      ((newestFirst (candidates artifacts)).map Candidate.artifact) := select_sublist.subperm
  have hsort : ((newestFirst (candidates artifacts)).map Candidate.artifact).Perm
      ((candidates artifacts).map Candidate.artifact) := (newestFirst_perm _).map _
  exact hwalk.trans (hsort.subperm.trans (map_artifact_candidates_sublist artifacts).subperm)

theorem truncate_subset (packageName : String) (budget : Budget) (artifacts : List Artifact) :
    (truncate packageName budget artifacts).1 ⊆ artifacts := by
  unfold truncate
  split
  · exact (keep_candidates_subperm budget artifacts).subset
  · exact List.Subset.refl _

/-- Both files tell versions, and that of the second one is not the newer of the two. -/
def NotNewer (a b : Artifact) : Prop :=
  ∃ v ∈ Distribution.version? a.filename, ∃ w ∈ Distribution.version? b.filename,
    (order w v).isLE = true

/-- From one file that is kept to the next the version never rises. -/
theorem keep_candidates_pairwise (budget : Budget) (artifacts : List Artifact) :
    (keep budget (candidates artifacts)).Pairwise NotNewer := by
  have hversion : ∀ c ∈ newestFirst (candidates artifacts),
      c.version ∈ Distribution.version? c.artifact.filename := fun c hc ↦
    (version?_of_mem_candidates ((newestFirst_perm _).mem_iff.1 hc)).2
  refine List.Pairwise.sublist select_sublist (List.pairwise_map.2 ?_)
  refine (newestFirst_newestFirst (candidates artifacts)).imp_of_mem fun {c d} hc hd hle ↦ ?_
  exact ⟨c.version, hversion c hc, d.version, hversion d hd, hle⟩

/-! ### Verdicts -/

/-- The log record about a file whose name tells no version. -/
def unknownRecord (packageName : String) (a : Artifact) : Log.Record where
  level := .debug
  message := "failed to parse version from filename"
  fields := some [("packageName", .string packageName), ("filename", .string a.filename)]

/-- The log record about a package that keeps all its files. -/
def skippedRecord (packageName : String) : Log.Record where
  level := .warn
  message := "give up keep_recent for package"
  fields := some [("packageName", .string packageName)]

/-- What may become of the files of a package. -/
inductive Verdict (packageName : String) (artifacts : List Artifact) :
    List Artifact × List Notice → Prop
  /-- Some versions are unknown: the files are left as they are, and the log has a record for each
  file that is at fault, in their order, and one for the package behind them. -/
  | skipped {notices : List Notice}
      (hunknown : ∃ a ∈ artifacts, Distribution.version? a.filename = none)
      (hlog : notices.map Notice.record =
        (artifacts.filter fun a ↦ (Distribution.version? a.filename).isNone).map
            (unknownRecord packageName) ++ [skippedRecord packageName]) :
      Verdict packageName artifacts (artifacts, notices)
  /-- All versions are known: some of the files are kept, from the newest version to the oldest, and
  there is nothing to say. -/
  | selected {kept : List Artifact}
      (hknown : ∀ a ∈ artifacts, (Distribution.version? a.filename).isSome = true)
      (hsubperm : kept.Subperm artifacts) (horder : kept.Pairwise NotNewer) :
      Verdict packageName artifacts (kept, [])

/-- The notices of a package that is given up are these records. -/
theorem map_record_notices (packageName : String) (strangers : List Artifact) :
    ((strangers.map fun a ↦ Notice.versionUnknown packageName a.filename) ++
        [Notice.retentionSkipped packageName]).map Notice.record =
      strangers.map (unknownRecord packageName) ++ [skippedRecord packageName] := by
  rw [List.map_append, List.map_map]
  rfl

/-- **Retention selects files of a package whose versions are all known, and leaves every other
package alone**, whatever the budget. -/
theorem verdict_truncate (packageName : String) (budget : Budget) (artifacts : List Artifact) :
    Verdict packageName artifacts (truncate packageName budget artifacts) := by
  unfold truncate
  split
  · rename_i hnone
    refine .selected (fun a ha ↦ ?_) (keep_candidates_subperm budget artifacts)
      (keep_candidates_pairwise budget artifacts)
    simpa [← Option.ne_none_iff_isSome] using List.filter_eq_nil_iff.1 hnone a ha
  · rename_i hsome
    obtain ⟨a, ha⟩ := List.exists_mem_of_ne_nil _ hsome
    obtain ⟨hmem, hversion⟩ := List.mem_filter.1 ha
    exact .skipped ⟨a, hmem, Option.isNone_iff_eq_none.1 hversion⟩
      (map_record_notices packageName (unknown artifacts))

end IndexSnapshot.Retention
