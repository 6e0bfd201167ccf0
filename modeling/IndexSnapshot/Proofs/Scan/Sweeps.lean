import IndexSnapshot.Proofs.Progress.Course
import IndexSnapshot.Proofs.Scan.Session

/-!
# Sweeps on one progress

A sweep scans the packages of a list once. It starts the progress with their number; every package
is shown when its job starts, and counted when its page has arrived, whether or not there was
anything to be had from it. So after every arrival the steps of a session are a course of the jobs
that have started and of the arrivals that took effect (`Session.Accounted`), whatever the order of
the arrivals.

When all pages have arrived, all packages have been shown and counted. Sweeps that follow each other
on the same progress do not see what earlier ones have counted.
-/

namespace IndexSnapshot.Scan

open Progress (Step Course)

-- counts are compared as they are written, and never computed
attribute [local irreducible] Binary64.ofNat

/-! ### Steps among events -/

theorem steps_append (events later : List Event) :
    Event.steps (events ++ later) = Event.steps events ++ Event.steps later :=
  List.filterMap_append

theorem steps_notices (notices : List Notice) : Event.steps (notices.map .notice) = [] := by
  rw [Event.steps, List.filterMap_map]
  exact List.filterMap_eq_nil_iff.2 fun _ _ ↦ rfl

/-- Packages that start are shown. -/
theorem steps_starting (options : Options) (names : List String) :
    Event.steps (starting options names) = names.map .display := by
  induction names with
  | nil => rfl
  | cons name names ih => exact congrArg (Step.display name :: ·) ih

theorem steps_opening (packageCount : ℕ) (concurrency : Binary64) :
    Event.steps (opening packageCount concurrency) = [.start (.ofNat packageCount)] := rfl

/-! ### Sessions -/

namespace Session

variable {world : World} {options : Options} {limit : Limit} {concurrency : Binary64}
  {names : List String} {record : List (ℕ × Except Empty (List Artifact))} {s : Session}

/-- The session stands as the record of arrivals says, and so does the progress that it makes: all
packages that have started are shown, and those whose pages have arrived are counted. -/
structure Accounted (limit : Limit) (names : List String)
    (record : List (ℕ × Except Empty (List Artifact))) (s : Session) : Prop where
  pool : s.pool.IsAfter limit names record
  steps : ∃ later, Event.steps s.trace = .start (.ofNat names.length) :: later ∧
    Course s.pool.started record.length later

theorem accounted_begin : (begin options limit concurrency names).Accounted limit names [] where
  pool := Pool.isAfter_ofJobs
  steps := by
    refine ⟨(Pool.ofJobs limit names : Pool String Empty (List Artifact)).started.map .display,
      ?_, ?_⟩
    · rw [begin, steps_append, steps_opening, steps_starting]
      rfl
    · exact Course.nil.displayAll _

/-- The arrival of a page that was asked for counts one package and shows those that start then. -/
theorem steps_arrive {i : ℕ} (hrunning : s.pool.isRunning i = true)
    (hlt : i < s.pool.started.length) :
    Event.steps (s.arrive world options i).trace = Event.steps s.trace ++
      .advance 1 :: ((s.arrive world options i).pool.started.drop s.pool.started.length).map
        .display := by
  rw [arrive, List.getElem?_eq_getElem hlt]
  simp only [hrunning, if_true]
  rw [steps_append, steps_append, steps_append, steps_notices, steps_starting, List.append_nil,
    List.append_assoc]
  rfl

theorem arrive_of_not_isRunning {i : ℕ} (hrunning : ¬ s.pool.isRunning i = true) :
    s.arrive world options i = s := by
  rw [arrive]
  split
  · rw [if_neg hrunning]
  · rfl

/-- **One arrival keeps the account.** -/
theorem Accounted.arrive (h : s.Accounted limit names record) (i : ℕ) :
    (s.arrive world options i).Accounted limit names
      (accept Prod.fst limit names.length record (i, .ok (filesAt world options names i))) := by
  have hpool := h.pool.settle i (.ok (filesAt world options names i))
  rw [← arrive_pool h.pool] at hpool
  refine ⟨hpool, ?_⟩
  by_cases hrunning : s.pool.isRunning i = true
  · have heffect := h.pool.isRunning_iff.1 hrunning
    rw [accept, if_pos heffect] at hpool ⊢
    have hlength : ∀ ending, (record ++ [ending]).length = record.length + 1 :=
      fun _ ↦ List.length_append
    have hopened := limit.opened_le_opened_succ names.length record.length
    have hlt : i < s.pool.started.length := by
      rw [h.pool.started_eq, List.length_take_of_le (limit.opened_le _ _)]
      exact heffect.1
    -- the jobs that have started stay the first ones
    have hstarted : s.pool.started ++
        (s.arrive world options i).pool.started.drop s.pool.started.length =
          (s.arrive world options i).pool.started := by
      refine List.prefix_iff_eq_append.1 ?_
      rw [h.pool.started_eq, hpool.started_eq, hlength]
      exact List.take_prefix_take_left hopened
    obtain ⟨later, hsteps, hcourse⟩ := h.steps
    refine ⟨_, (steps_arrive hrunning hlt).trans (by rw [hsteps, List.cons_append]), ?_⟩
    have hmore := hcourse.advance.displayAll
      ((s.arrive world options i).pool.started.drop s.pool.started.length)
    rw [hlength]
    rwa [hstarted, List.append_assoc] at hmore
  · rw [accept, if_neg (mt h.pool.isRunning_iff.2 hrunning), arrive_of_not_isRunning hrunning]
    exact h.steps

/-- **A session is accounted for under every schedule**: what it shows and counts is told by the
arrivals that took effect. -/
theorem accounted_follow (schedule : List ℕ) :
    ((begin options limit concurrency names).follow world options schedule).Accounted limit names
      (effective Prod.fst limit names.length
        (schedule.map fun i ↦ (i, .ok (filesAt world options names i)))) := by
  have hfold : ∀ (s : Session) (record : List (ℕ × Except Empty (List Artifact))),
      s.Accounted limit names record → (s.follow world options schedule).Accounted limit names
        ((schedule.map fun i ↦ (i, .ok (filesAt world options names i))).foldl
          (accept Prod.fst limit names.length) record) := by
    induction schedule with
    | nil => exact fun s record h ↦ h
    | cons i schedule ih => exact fun s record h ↦ ih _ _ (h.arrive i)
  exact hfold _ [] accounted_begin

/-- When all pages have arrived, all packages have been shown and counted. -/
theorem exists_course_follow (schedule : List ℕ)
    (hcomplete : Complete limit names.length schedule) :
    ∃ later, Event.steps ((begin options limit concurrency names).follow world options
        schedule).trace = .start (.ofNat names.length) :: later ∧
      Course names names.length later := by
  have haccount : ((begin options limit concurrency names).follow world options
      schedule).Accounted limit names _ := accounted_follow schedule
  have hall : (effective Prod.fst limit names.length (schedule.map fun i ↦
      ((i, .ok (filesAt world options names i)) : ℕ × Except Empty (List Artifact)))).length =
        names.length := by
    rw [effective_map, List.length_map]
    exact hcomplete
  obtain ⟨later, hsteps, hcourse⟩ := haccount.steps
  have hflight := haccount.pool.isRecord.length_inFlight
  have hopened := limit.opened_le names.length names.length
  rw [haccount.pool.started_eq, hall] at hcourse
  rw [hall] at hflight
  rw [List.take_of_length_le (by omega)] at hcourse
  exact ⟨later, hsteps, hcourse⟩

end Session

/-- A scan under a schedule in which all pages arrive. -/
theorem runOn_of_complete {limit : Limit} {concurrency : Binary64} {schedule : List ℕ}
    {names : List String} (hlimit : Limit.ofNumber? concurrency = some limit)
    (hcomplete : Complete limit names.length schedule) (world : World) (options : Options) :
    runOn schedule world options concurrency names =
      .ok (some (names.map (files world options)),
        ((Session.begin options limit concurrency names).follow world options schedule).trace ++
          closing names.length) := by
  rw [runOn, Scan.limit, hlimit]
  simp only [bind, Except.bind, Session.result?_follow, if_pos hcomplete]
  rfl

/-! ### Sweeps -/

/-- A scan of packages, with all that it depends on. -/
structure Sweep where
  world : World
  options : Options
  /-- How many packages are scanned at a time. -/
  concurrency : Binary64
  names : List String
  /-- The order in which pages arrive. -/
  schedule : List ℕ

namespace Sweep

variable {p : Progress} {s : Sweep} {sweeps : List Sweep}

/-- The files of all packages, and all that happens meanwhile. -/
def run (s : Sweep) : Except LimitError (Option (List (List Artifact)) × List Event) :=
  runOn s.schedule s.world s.options s.concurrency s.names

/-- The steps that a sweep makes on the progress; a sweep that does not begin makes none. -/
def steps (s : Sweep) : List Step :=
  match s.run with
  | .ok (_, trace) => Event.steps trace
  | .error _ => []

/-- The steps of sweeps that are made one after the other. -/
def allSteps (sweeps : List Sweep) : List Step := sweeps.flatMap steps

/-- A sweep that is let begin and is given all pages. -/
structure Finishes (s : Sweep) : Prop where
  /-- The number of packages at a time is a whole number from one on, or there is no limit. -/
  concurrency : s.concurrency.isPositiveInteger = true ∨ s.concurrency = .infinity false
  /-- Every page arrives at some time after it was asked for. -/
  complete : ∀ limit, Limit.ofNumber? s.concurrency = some limit →
    Complete limit s.names.length s.schedule
  /-- No list that fits into a memory is longer. -/
  length_le : s.names.length ≤ Binary64.exactCounts

theorem Finishes.exists_limit (h : s.Finishes) : ∃ limit,
    Limit.ofNumber? s.concurrency = some limit ∧ Complete limit s.names.length s.schedule := by
  have hlimit : ∃ limit, Limit.ofNumber? s.concurrency = some limit := by
    rcases h.concurrency with hinteger | hinfinity
    · obtain ⟨k, hk, hwhole⟩ := Binary64.exists_toInt?_of_isPositiveInteger hinteger
      exact ⟨_, Limit.ofNumber?_of_toInt? hk hwhole⟩
    · rw [hinfinity]
      exact ⟨.unlimited, rfl⟩
  exact hlimit.imp fun limit heq ↦ ⟨heq, h.complete limit heq⟩

/-- **Every order in which pages can arrive finishes a sweep**: each page once, and none before it
was asked for. -/
theorem finishes_of_perm {limit : Limit}
    (hlimit : s.concurrency.isPositiveInteger = true ∨ s.concurrency = .infinity false)
    (heq : Limit.ofNumber? s.concurrency = some limit)
    (hlength : s.names.length ≤ Binary64.exactCounts)
    (hperm : s.schedule.Perm (List.range s.names.length))
    (hasked : ∀ j (hj : j < s.schedule.length),
      s.schedule[j] < limit.opened s.names.length j) : s.Finishes where
  concurrency := hlimit
  complete limit' heq' := by
    obtain rfl : limit = limit' := Option.some.inj (heq.symm.trans heq')
    exact complete_of_perm hperm hasked
  length_le := hlength

/-- What listeners of the progress hear of a sweep and see when it is over, the progress being at
any point before. -/
structure Tallied (p : Progress) (s : Sweep) : Prop where
  answered : ∃ trace, s.run = .ok (some (s.names.map (files s.world s.options)), trace)
  /-- The start is heard of before all else, and never again. -/
  started : ∃ later, p.events s.steps = .started (.ofNat s.names.length) :: later ∧
    ∀ e ∈ later, e.IsCourse
  advanced : (p.events s.steps).filterMap Progress.Event.advanced? =
    (List.range s.names.length).map fun i ↦ (.ofNat (i + 1), .ofNat s.names.length)
  displayed : (p.events s.steps).filterMap Progress.Event.displayed? = s.names
  completed : (p.applyAll s.steps).completed = .ofNat s.names.length
  total : (p.applyAll s.steps).total = .ofNat s.names.length

theorem Finishes.exists_course (h : s.Finishes) : ∃ later,
    s.steps = .start (.ofNat s.names.length) :: later ∧ Course s.names s.names.length later := by
  obtain ⟨limit, hlimit, hcomplete⟩ := h.exists_limit
  have hrun : s.run = _ := runOn_of_complete hlimit hcomplete s.world s.options
  have hclosing : Event.steps (closing s.names.length) = [] := rfl
  rw [steps, hrun]
  simp only [steps_append, hclosing, List.append_nil]
  exact Session.exists_course_follow s.schedule hcomplete

theorem Finishes.tallied (h : s.Finishes) (p : Progress) : s.Tallied p := by
  obtain ⟨limit, hlimit, hcomplete⟩ := h.exists_limit
  obtain ⟨later, hsteps, hcourse⟩ := h.exists_course
  have hstart := Progress.completed_apply_start p (.ofNat s.names.length)
  have hevents : p.events s.steps = .started (.ofNat s.names.length) ::
      (p.apply (.start (.ofNat s.names.length))).events later := by
    rw [hsteps, Progress.events_cons, Progress.event]
  have hafter : p.applyAll s.steps =
      (p.apply (.start (.ofNat s.names.length))).applyAll later := by
    rw [hsteps, Progress.applyAll_cons]
  refine ⟨⟨_, runOn_of_complete hlimit hcomplete s.world s.options⟩,
    ⟨_, hevents, hcourse.isCourse_of_mem_events _⟩, ?_, ?_, ?_, ?_⟩
  · rw [hevents]
    exact hcourse.advances hstart h.length_le
  · rw [hevents]
    exact hcourse.displays _
  · rw [hafter, hcourse.completed_applyAll hstart h.length_le]
  · rw [hafter, hcourse.total_applyAll, Progress.total_apply_start]

theorem Finishes.staysWithin (h : s.Finishes) (hp : p.IsWithin) : p.StaysWithin s.steps := by
  obtain ⟨later, hsteps, hcourse⟩ := h.exists_course
  rw [hsteps]
  exact hcourse.staysWithin hp le_rfl h.length_le

/-- Sweeps hand the progress on as one that is within its total. -/
theorem staysWithin_allSteps (h : ∀ s ∈ sweeps, s.Finishes) (hp : p.IsWithin) :
    p.StaysWithin (allSteps sweeps) := by
  induction sweeps generalizing p with
  | nil =>
    intro points hpoints
    rw [List.prefix_nil.1 hpoints]
    exact hp
  | cons s sweeps ih =>
    obtain ⟨hs, hsweeps⟩ := List.forall_mem_cons.1 h
    have hfirst := hs.staysWithin hp
    exact hfirst.append (ih hsweeps (hfirst s.steps (List.prefix_refl _)))

/-- **Every sweep is counted in full and on its own**, whatever its pages answer and in whatever
order they arrive, and at no point of any sweep is more done than there is to do. -/
theorem tallied_sweeps (h : ∀ s ∈ sweeps, s.Finishes) :
    (∀ before s after, sweeps = before ++ s :: after →
      s.Tallied (({} : Progress).applyAll (allSteps before))) ∧
    ({} : Progress).StaysWithin (allSteps sweeps) := by
  have hcompleted : ({} : Progress).completed = .ofNat 0 := rfl
  have htotal : ({} : Progress).total = .ofNat 0 := rfl
  refine ⟨?_, staysWithin_allSteps h ?_⟩
  · rintro before s after rfl
    exact (h s (by simp)).tallied _
  · exact Progress.isWithin_of_eq hcompleted htotal le_rfl (Nat.zero_le _)

/-- An index with the page of one package. -/
def sampleWorld : World where
  fetch url :=
    if url = "https://host/simple/foo/" then
      .ok (.string "<a href=\"foo-1.0.tar.gz\">foo-1.0.tar.gz</a>")
    else .error (.bare "gone")
  warehouse := .unreachable "no network"

/-- Three packages of which two are the same and one has no page, the last pages arriving first, and
then no packages at all. -/
def sampleSweeps : List Sweep :=
  [⟨sampleWorld, ⟨"https://host/simple", none⟩, 2, ["foo", "bar", "foo"], [1, 2, 0]⟩,
    ⟨sampleWorld, ⟨"https://host/simple", none⟩, .infinity false, [], []⟩]

theorem finishes_sampleSweeps : ∀ s ∈ sampleSweeps, s.Finishes := by
  have htwo : Limit.ofNumber? 2 = some (.atMost 2) :=
    Limit.ofNumber?_of_toInt? (by decide) (Binary64.toInt?_ofNat (by decide))
  exact List.forall_mem_cons.2
    ⟨finishes_of_perm (.inl (by decide +kernel)) htwo (by decide) (by decide) (by decide),
      List.forall_mem_singleton.2
        (finishes_of_perm (.inr rfl) rfl (by decide) (by decide) (by decide))⟩

/-- Both of two sweeps are counted in full, a page that is missing as well. -/
theorem tallied_sampleSweeps : (∀ s ∈ sampleSweeps, s.Finishes) ∧
    (∀ before s after, sampleSweeps = before ++ s :: after →
      s.Tallied (({} : Progress).applyAll (allSteps before))) ∧
    ({} : Progress).StaysWithin (allSteps sampleSweeps) :=
  ⟨finishes_sampleSweeps, tallied_sweeps finishes_sampleSweeps⟩

end Sweep

end IndexSnapshot.Scan
