import IndexSnapshot.Scan.Run
import IndexSnapshot.Proofs.Scan.Pool

/-!
# Runs of a session

The pages of packages arrive in the order of a schedule. To the pool of a session every arrival is
the good ending of a job, with the files that the package contributes, and these depend on the page
alone. So a session comes to the files of all packages in their order as soon as all pages have
arrived, and the schedule decides no more than whether they have (`Session.result?_follow`).
-/

namespace IndexSnapshot.Scan

/-- All of so many jobs take effect in a schedule. -/
def Complete (limit : Limit) (jobs : ℕ) (schedule : List ℕ) : Prop :=
  (effective id limit jobs schedule).length = jobs

instance (limit : Limit) (jobs : ℕ) (schedule : List ℕ) :
    Decidable (Complete limit jobs schedule) :=
  inferInstanceAs (Decidable (_ = jobs))

/-- **Every order in which pages can arrive is complete**: each page once, and none before it was
asked for. -/
theorem complete_of_perm {limit : Limit} {jobs : ℕ} {order : List ℕ}
    (hperm : order.Perm (List.range jobs))
    (hstarted : ∀ j (hj : j < order.length), order[j] < limit.opened jobs j) :
    Complete limit jobs order := by
  have hnodup : (order.map id).Nodup := by
    rw [List.map_id]
    exact hperm.nodup_iff.2 List.nodup_range
  rw [Complete, effective_eq_self hnodup hstarted, hperm.length_eq, List.length_range]

/-- The files that a package contributes in a world. -/
def files (world : World) (options : Options) (name : String) : List Artifact :=
  (package options name (world.fetch (pageUrl options.simpleBase name))).1

/-- The files that the package of a number contributes. -/
def filesAt (world : World) (options : Options) (names : List String) (i : ℕ) : List Artifact :=
  names[i]?.elim [] (files world options)

theorem map_filesAt (world : World) (options : Options) (names : List String) :
    (List.range names.length).map (filesAt world options names) =
      names.map (files world options) := by
  refine List.ext_getElem (by simp) fun i hi hi' ↦ ?_
  rw [List.length_map] at hi'
  simp [filesAt, hi']

namespace Session

variable {world : World} {options : Options} {limit : Limit} {concurrency : Binary64}
  {names : List String}

/-- An arrival is a good ending to the pool, or about no running job. -/
theorem arrive_pool {s : Session} {record : List (ℕ × Except Empty (List Artifact))}
    (h : s.pool.IsAfter limit names record) (i : ℕ) :
    (s.arrive world options i).pool = s.pool.settle i (.ok (filesAt world options names i)) := by
  have hstarted : ∀ name, s.pool.started[i]? = some name → names[i]? = some name := by
    intro name hname
    rw [h.started_eq, List.getElem?_take] at hname
    split at hname
    · exact hname
    · cases hname
  by_cases hrunning : s.pool.isRunning i = true
  · -- a job in flight has started, so the session knows its name
    have hlt : i < s.pool.started.length := by
      have hopened := (h.isRunning_iff.1 hrunning).1
      have hle := limit.opened_le names.length record.length
      rw [h.started_eq, List.length_take]
      omega
    have hname := List.getElem?_eq_getElem hlt
    rw [arrive, hname]
    simp only [hrunning, if_true, filesAt, hstarted _ hname, Option.elim_some, files]
  · have hsettle : s.pool.settle i (.ok (filesAt world options names i)) = s.pool := by
      rw [Pool.settle, if_neg hrunning]
    rw [hsettle, arrive]
    split
    · rw [if_neg hrunning]
    · rfl

/-- **A session follows a schedule as its pool does.** -/
theorem follow_pool (schedule : List ℕ) :
    ((begin options limit concurrency names).follow world options schedule).pool =
      (Pool.ofJobs limit names).settleAll
        (schedule.map fun i ↦ (i, .ok (filesAt world options names i))) := by
  have hfold : ∀ (s : Session) (record : List (ℕ × Except Empty (List Artifact))),
      s.pool.IsAfter limit names record → (s.follow world options schedule).pool =
        s.pool.settleAll (schedule.map fun i ↦ (i, .ok (filesAt world options names i))) := by
    induction schedule with
    | nil => exact fun s record h ↦ rfl
    | cons i schedule ih =>
      intro s record h
      have harrive : (s.arrive world options i).pool =
          s.pool.settle i (.ok (filesAt world options names i)) := arrive_pool h i
      have hnext := h.settle i (.ok (filesAt world options names i))
      rw [← harrive] at hnext
      have hrest := ih _ _ hnext
      rw [harrive] at hrest
      exact hrest
  exact hfold _ [] Pool.isAfter_ofJobs

/-- **A session comes to the files of all packages, in their order**, once all pages have
arrived. -/
theorem result?_follow (schedule : List ℕ) :
    ((begin options limit concurrency names).follow world options schedule).result? =
      if Complete limit names.length schedule then some (names.map (files world options))
      else none := by
  have hafter := Pool.isAfter_settleAll limit names
    (schedule.map fun i ↦
      ((i, .ok (filesAt world options names i)) : ℕ × Except Empty (List Artifact)))
  rw [effective_map] at hafter
  have houtcome : ((begin options limit concurrency names).follow world options
      schedule).pool.outcome = if Complete limit names.length schedule then
        some (.ok (names.map (files world options))) else none := by
    rw [follow_pool, ← map_filesAt]
    exact hafter.outcome_of_ok
  rw [result?, houtcome]
  by_cases hcomplete : Complete limit names.length schedule
  · simp only [if_pos hcomplete]
  · simp only [if_neg hcomplete]

end Session

/-- The files of all packages under a schedule, when the limit will do. -/
theorem exists_runOn_eq {limit : Limit} {concurrency : Binary64}
    (hlimit : Limit.ofNumber? concurrency = some limit) (schedule : List ℕ) (world : World)
    (options : Options) (names : List String) : ∃ trace,
      runOn schedule world options concurrency names =
        .ok (if Complete limit names.length schedule then some (names.map (files world options))
          else none, trace) := by
  rw [runOn, Scan.limit, hlimit]
  simp only [bind, Except.bind, Session.result?_follow]
  by_cases hcomplete : Complete limit names.length schedule
  · exact ⟨_, by simp only [if_pos hcomplete]; rfl⟩
  · exact ⟨_, by simp only [if_neg hcomplete]; rfl⟩

end IndexSnapshot.Scan
