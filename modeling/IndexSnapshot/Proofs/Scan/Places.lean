import IndexSnapshot.Scan.Run
import IndexSnapshot.Proofs.Number.Whole
import IndexSnapshot.Proofs.Scan.Pool

/-!
# The places of a pool

An ending takes effect when its job has started and has not ended (`effective`), that is, when it is
running at the moment the ending comes (`Pool.effective_eq_applied`); it frees one place, and the
next job takes it. So the number of endings that took effect tells which jobs have started and how
many are running, in whatever order jobs end (`Pool.Places`): no place is free while a job waits,
and no job starts before its turn or twice.

How a job ends has no part in this. Two runs in which the same jobs end in the same order start the
same jobs, whichever of the endings are failures (`Pool.SamePlaces`).
-/

namespace IndexSnapshot.Scan.Pool

variable {ι ε α : Type} {p : Pool ι ε α} {limit : Limit} {jobs : List ι}
  {record : List (ℕ × Except ε α)}

/-! ### Endings that take effect -/

/-- The endings of a run that take effect: each comes while its job is running. -/
def applied (p : Pool ι ε α) : List (ℕ × Except ε α) → List (ℕ × Except ε α)
  | [] => []
  | (i, ending) :: endings =>
    let later := (p.settle i ending).applied endings
    if p.isRunning i then (i, ending) :: later else later

/-- The record grows by the endings that take effect. -/
theorem IsAfter.foldl_accept (h : p.IsAfter limit jobs record)
    (endings : List (ℕ × Except ε α)) :
    endings.foldl (accept Prod.fst limit jobs.length) record = record ++ p.applied endings := by
  induction endings generalizing p record with
  | nil => exact (List.append_nil record).symm
  | cons ending endings ih =>
    obtain ⟨i, ending⟩ := ending
    rw [List.foldl_cons, ih (h.settle i ending), applied, accept]
    by_cases hrunning : p.isRunning i = true
    · simp only [if_pos hrunning, if_pos (h.isRunning_iff.1 hrunning), List.append_assoc,
        List.singleton_append]
    · simp only [if_neg hrunning, if_neg (mt h.isRunning_iff.2 hrunning)]

/-- **The endings that take effect are those of running jobs.** -/
theorem effective_eq_applied (limit : Limit) (jobs : List ι) (endings : List (ℕ × Except ε α)) :
    effective Prod.fst limit jobs.length endings = (ofJobs limit jobs).applied endings :=
  isAfter_ofJobs.foldl_accept endings

theorem IsAfter.append_applied (h : p.IsAfter limit jobs record)
    (endings : List (ℕ × Except ε α)) :
    (p.settleAll endings).IsAfter limit jobs (record ++ p.applied endings) := by
  rw [← h.foldl_accept]
  exact h.settleAll endings

/-! ### Places -/

/-- What stands in a pool of at most `n` jobs at a time when the endings on the record have taken
effect. -/
structure Places (n : ℕ) (jobs : List ι) (record : List (ℕ × Except ε α)) (p : Pool ι ε α) :
    Prop where
  /-- Each job has ended once at most. -/
  ended_nodup : (record.map Prod.fst).Nodup
  ended_le : record.length ≤ jobs.length
  /-- The jobs that have started are the first ones, each of them started once. -/
  started_eq : p.started = jobs.take (min jobs.length (n + record.length))
  waiting_eq : p.waiting = jobs.drop (min jobs.length (n + record.length))
  running_nodup : p.running.Nodup
  /-- A job is running when it has started and not ended. -/
  mem_running : ∀ i, i ∈ p.running ↔ i < p.started.length ∧ i ∉ record.map Prod.fst
  length_running : p.running.length = min n (jobs.length - record.length)
  /-- No place is free while a job waits. -/
  full : p.waiting ≠ [] → p.running.length = n
  /-- The ending of a job that is not running changes nothing. -/
  settle_eq : ∀ i ending, i ∉ p.running → p.settle i ending = p

/-- The same jobs wait, have started and are running in two pools. -/
structure SamePlaces (p q : Pool ι ε α) : Prop where
  waiting_eq : p.waiting = q.waiting
  started_eq : p.started = q.started
  running_eq : p.running = q.running

theorem settle_of_not_mem {i : ℕ} (h : i ∉ p.running) (ending : Except ε α) :
    p.settle i ending = p := by
  rw [settle, isRunning, if_neg (mt List.contains_iff_mem.1 h)]

theorem IsAfter.places {n : ℕ} (h : p.IsAfter (.atMost n) jobs record) :
    p.Places n jobs record := by
  have hopened : (Limit.atMost n).opened jobs.length record.length =
      min jobs.length (n + record.length) := rfl
  have hstarted := h.started_eq
  have hwaiting := h.waiting_eq
  have hflight := h.isRecord.length_inFlight
  rw [← h.running_eq] at hflight
  rw [hopened] at hstarted hwaiting hflight
  have hle : record.length ≤ jobs.length := by omega
  have hrunning : p.running.length = min n (jobs.length - record.length) := by omega
  refine ⟨h.isRecord.nodup, hle, hstarted, hwaiting, ?_, ?_, hrunning, ?_, ?_⟩
  · rw [h.running_eq]
    exact List.nodup_range.filter _
  · intro i
    rw [← List.contains_iff_mem, ← isRunning, h.isRunning_iff, hopened, hstarted,
      List.length_take, min_eq_left (min_le_left jobs.length (n + record.length))]
  · intro hwait
    have hpos := List.length_pos_iff.2 hwait
    rw [hwaiting, List.length_drop] at hpos
    omega
  · exact fun i ending hi ↦ settle_of_not_mem hi ending

/-- Pools after records about the same jobs have the same places. -/
theorem IsAfter.samePlaces {q : Pool ι ε α} {other : List (ℕ × Except ε α)}
    (h : p.IsAfter limit jobs record) (hq : q.IsAfter limit jobs other)
    (hsame : other.map Prod.fst = record.map Prod.fst) : q.SamePlaces p := by
  have hlength : other.length = record.length := by
    rw [← List.length_map (f := Prod.fst), hsame, List.length_map]
  refine ⟨?_, ?_, ?_⟩
  · rw [hq.waiting_eq, h.waiting_eq, hlength]
  · rw [hq.started_eq, h.started_eq, hlength]
  · rw [hq.running_eq, h.running_eq, inFlight, inFlight, hlength, hsame]

/-- Which endings take effect does not depend on how jobs end. -/
theorem map_fst_effective (limit : Limit) (jobs : ℕ) (endings : List (ℕ × Except ε α)) :
    (effective Prod.fst limit jobs endings).map Prod.fst =
      effective id limit jobs (endings.map Prod.fst) :=
  (effective_map id Prod.fst limit jobs endings).symm

/-- **The jobs of a pool start in their order, as places become free**, under every positive whole
number of places and for every order of endings; failures free places as results do. -/
theorem exists_places_settleAll {concurrency : Binary64} {n : ℕ} (hn : 1 ≤ n)
    (hwhole : concurrency.toInt? = some (n : ℤ)) (names : List ι)
    (endings : List (ℕ × Except ε α)) : ∃ limit, Scan.limit concurrency = .ok limit ∧
      ((ofJobs limit names).settleAll endings).Places n names
        (effective Prod.fst limit names.length endings) ∧
      ∀ others : List (ℕ × Except ε α), others.map Prod.fst = endings.map Prod.fst →
        ((ofJobs limit names).settleAll others).SamePlaces
          ((ofJobs limit names).settleAll endings) := by
  have hlimit : Scan.limit concurrency = .ok (.atMost n) := by
    rw [Scan.limit, Limit.ofNumber?_of_toInt? hn hwhole]
  refine ⟨.atMost n, hlimit, (isAfter_settleAll _ names endings).places, fun others hsame ↦ ?_⟩
  refine (isAfter_settleAll _ names endings).samePlaces (isAfter_settleAll _ names others) ?_
  rw [map_fst_effective, map_fst_effective, hsame]

/-- Endings of four jobs under two places: one that comes before its job has started, a failure,
another ending of the job that failed, and a result. -/
def sampleEndings : List (ℕ × Except String ℕ) :=
  [(2, .ok 0), (1, .error "gone"), (1, .ok 1), (2, .ok 2)]

/-- Two of the endings take effect, so that all four jobs have started. -/
theorem exists_places_sampleEndings :
    1 ≤ 2 ∧ (2 : Binary64).toInt? = some ((2 : ℕ) : ℤ) ∧
      ∃ limit, Scan.limit 2 = .ok limit ∧
        ((ofJobs limit ["a", "b", "a", "c"]).settleAll sampleEndings).Places 2 ["a", "b", "a", "c"]
          (effective Prod.fst limit 4 sampleEndings) ∧
        ∀ others : List (ℕ × Except String ℕ), others.map Prod.fst = sampleEndings.map Prod.fst →
          ((ofJobs limit ["a", "b", "a", "c"]).settleAll others).SamePlaces
            ((ofJobs limit ["a", "b", "a", "c"]).settleAll sampleEndings) :=
  have hwhole : (2 : Binary64).toInt? = some ((2 : ℕ) : ℤ) := by decide +kernel
  ⟨by decide, hwhole, exists_places_settleAll (by decide) hwhole _ sampleEndings⟩

example : (effective Prod.fst (.atMost 2) 4 sampleEndings).map Prod.fst = [1, 2] := by decide

end IndexSnapshot.Scan.Pool
