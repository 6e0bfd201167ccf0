import IndexSnapshot.Scan.Pool
import Mathlib.Data.List.Basic
import Mathlib.Data.List.Nodup
import Mathlib.Data.List.Perm.Subperm
import Mathlib.Data.List.Range

/-!
# Runs of a pool

Endings are handed to a pool in any order, and some of them take no effect: those of jobs that have
not started or have ended already. What a pool has come to is told by the record of the endings that
took effect, and by nothing else (`Pool.IsAfter`):

* when `s` jobs have ended under a limit of `n`, the first `n + s` jobs have started, if there are
  so many, in the order in which they were handed in;
* those of them that are not on the record are running;
* results and failure are those on the record.

One ending keeps this (`Pool.IsAfter.settle`), so every run does (`Pool.IsAfter.settleAll`). It does
not matter for the places of the pool whether a job ended well.
-/

namespace IndexSnapshot.Scan

/-! ### The record -/

/-- How many jobs have started when so many have ended. -/
def Limit.opened (limit : Limit) (jobs ended : ℕ) : ℕ :=
  match limit with
  | atMost n => min jobs (n + ended)
  | unlimited => jobs

theorem Limit.opened_le (limit : Limit) (jobs ended : ℕ) : limit.opened jobs ended ≤ jobs := by
  cases limit with
  | atMost n => exact min_le_left jobs (n + ended)
  | unlimited => exact le_rfl

/-- Every ending opens the place of one more job, as long as jobs are waiting. -/
theorem Limit.opened_succ (limit : Limit) (jobs ended : ℕ) :
    limit.opened jobs (ended + 1) = min jobs (limit.opened jobs ended + 1) := by
  cases limit with
  | atMost n =>
    simp only [opened]
    omega
  | unlimited => exact (min_eq_left (Nat.le_succ jobs)).symm

theorem Limit.opened_le_opened_succ (limit : Limit) (jobs ended : ℕ) :
    limit.opened jobs ended ≤ limit.opened jobs (ended + 1) := by
  rw [opened_succ]
  exact le_min (limit.opened_le jobs ended) (Nat.le_succ _)

/-- While a job is waiting and another one has just ended, the limit admits one more. -/
theorem Limit.admits_of_opened_lt {limit : Limit} {jobs ended : ℕ}
    (hwaiting : limit.opened jobs ended < jobs) (hended : ended < limit.opened jobs ended) :
    limit.admits (limit.opened jobs ended - (ended + 1)) = true := by
  cases limit with
  | atMost n =>
    simp only [opened] at hwaiting hended ⊢
    refine decide_eq_true ?_
    omega
  | unlimited => rfl

/-- A natural number from one on sets the limit that it is. -/
theorem Limit.ofNumber?_of_toInt? {x : Binary64} {k : ℕ} (hk : 1 ≤ k)
    (h : x.toInt? = some (k : ℤ)) : Limit.ofNumber? x = some (.atMost k) := by
  obtain ⟨k, rfl⟩ := Nat.exists_eq_add_of_le' hk
  unfold Limit.ofNumber?
  split
  · cases h
  · rw [h]

variable {β γ : Type}

/-- The record after one more step about the job that `key` tells: the step takes effect if the job
has started and has not ended. -/
def accept (key : β → ℕ) (limit : Limit) (jobs : ℕ) (record : List β) (step : β) : List β :=
  if key step < limit.opened jobs record.length ∧ key step ∉ record.map key then record ++ [step]
  else record

/-- The steps that take effect, in their order. -/
def effective (key : β → ℕ) (limit : Limit) (jobs : ℕ) (steps : List β) : List β :=
  steps.foldl (accept key limit jobs) []

/-- What comes with a step has no influence on whether it takes effect. -/
theorem effective_map (key : γ → ℕ) (f : β → γ) (limit : Limit) (jobs : ℕ) (steps : List β) :
    effective key limit jobs (steps.map f) = (effective (key ∘ f) limit jobs steps).map f := by
  have haccept : ∀ (record : List β) (step : β), accept key limit jobs (record.map f) (f step) =
      (accept (key ∘ f) limit jobs record step).map f := by
    intro record step
    simp only [accept, List.length_map, List.map_map, Function.comp_apply]
    split
    · rw [List.map_append, List.map_singleton]
    · rfl
  have hfold : ∀ record : List β, (steps.map f).foldl (accept key limit jobs) (record.map f) =
      (steps.foldl (accept (key ∘ f) limit jobs) record).map f := by
    induction steps with
    | nil => exact fun record ↦ rfl
    | cons step steps ih =>
      intro record
      rw [List.map_cons, List.foldl_cons, List.foldl_cons, haccept, ih]
  exact hfold []

/-- The record is that of jobs which have started, each noted once. -/
structure IsRecord (key : β → ℕ) (limit : Limit) (jobs : ℕ) (record : List β) : Prop where
  nodup : (record.map key).Nodup
  lt_opened : ∀ i ∈ record.map key, i < limit.opened jobs record.length

theorem isRecord_nil (key : β → ℕ) (limit : Limit) (jobs : ℕ) : IsRecord key limit jobs [] where
  nodup := List.nodup_nil
  lt_opened _ hi := absurd hi List.not_mem_nil

theorem IsRecord.accept {key : β → ℕ} {limit : Limit} {jobs : ℕ} {record : List β}
    (h : IsRecord key limit jobs record) (step : β) :
    IsRecord key limit jobs (accept key limit jobs record step) := by
  unfold Scan.accept
  split
  · rename_i heffect
    refine ⟨?_, fun i hi ↦ ?_⟩
    · rw [List.map_append, List.map_singleton]
      exact List.nodup_append.2 ⟨h.nodup, List.nodup_singleton _, fun i hi j hj hij ↦
        heffect.2 (List.mem_singleton.1 hj ▸ hij ▸ hi)⟩
    · rw [List.length_append, List.length_singleton]
      refine lt_of_lt_of_le ?_ (limit.opened_le_opened_succ jobs record.length)
      rw [List.map_append, List.mem_append] at hi
      rcases hi with hi | hi
      · exact h.lt_opened i hi
      · exact List.mem_singleton.1 hi ▸ heffect.1
  · exact h

/-- The jobs that have started and are not on the record, in the order of start. -/
def inFlight (key : β → ℕ) (limit : Limit) (jobs : ℕ) (record : List β) : List ℕ :=
  (List.range (limit.opened jobs record.length)).filter (· ∉ record.map key)

theorem IsRecord.length_inFlight {key : β → ℕ} {limit : Limit} {jobs : ℕ} {record : List β}
    (h : IsRecord key limit jobs record) :
    (inFlight key limit jobs record).length + record.length =
      limit.opened jobs record.length := by
  have hended : ((List.range (limit.opened jobs record.length)).filter
      (· ∈ record.map key)).Perm (record.map key) := by
    refine (List.perm_ext_iff_of_nodup (List.nodup_range.filter _) h.nodup).2 fun i ↦ ?_
    rw [List.mem_filter, List.mem_range, decide_eq_true_iff]
    exact ⟨And.right, fun hi ↦ ⟨h.lt_opened i hi, hi⟩⟩
  have hsplit := List.length_eq_length_filter_add
    (l := List.range (limit.opened jobs record.length)) (· ∈ record.map key)
  rw [hended.length_eq, List.length_map, List.length_range] at hsplit
  simp only [inFlight, decide_not]
  omega

/-- Steps about different jobs all take effect when each comes after its job has started. -/
theorem effective_eq_self {key : β → ℕ} {limit : Limit} {jobs : ℕ} {steps : List β}
    (hnodup : (steps.map key).Nodup)
    (hstarted : ∀ j (hj : j < steps.length), key steps[j] < limit.opened jobs j) :
    effective key limit jobs steps = steps := by
  induction steps using List.reverseRecOn with
  | nil => rfl
  | append_singleton steps step ih =>
    rw [List.map_append, List.map_singleton, List.nodup_append] at hnodup
    have hrecord : effective key limit jobs steps = steps := by
      refine ih hnodup.1 fun j hj ↦ ?_
      have hearlier := hstarted j (by simp; omega)
      rwa [List.getElem_append_left hj] at hearlier
    have hlast : key step < limit.opened jobs steps.length := by
      simpa using hstarted steps.length (by simp)
    have hfresh : key step ∉ steps.map key := fun hmem ↦
      hnodup.2.2 _ hmem _ (List.mem_singleton_self _) rfl
    have hstep : effective key limit jobs (steps ++ [step]) =
        accept key limit jobs (effective key limit jobs steps) step := List.foldl_concat ..
    rw [hstep, hrecord, accept, if_pos ⟨hlast, hfresh⟩]

/-- When as many jobs are on the record as there are, every job is. -/
theorem IsRecord.mem_of_length_eq {key : β → ℕ} {limit : Limit} {jobs i : ℕ} {record : List β}
    (h : IsRecord key limit jobs record) (hlength : record.length = jobs) (hi : i < jobs) :
    i ∈ record.map key := by
  have hsubset : record.map key ⊆ List.range jobs := fun j hj ↦
    List.mem_range.2 ((h.lt_opened j hj).trans_le (limit.opened_le _ _))
  have hperm : (record.map key).Perm (List.range jobs) :=
    (List.subperm_of_subset h.nodup hsubset).perm_of_length_le
      (by rw [List.length_range, List.length_map, hlength])
  exact hperm.mem_iff.2 (List.mem_range.2 hi)

namespace Pool

variable {ι ε α : Type} {p : Pool ι ε α} {limit : Limit} {jobs : List ι}
  {record : List (ℕ × Except ε α)} {i m : ℕ}

/-! ### Starting jobs -/

/-- The next of the jobs starts when the limit admits it. -/
theorem startNext_of_lt (hwaiting : p.waiting = jobs.drop m) (hstarted : p.started = jobs.take m)
    (hm : m < jobs.length) (hadmits : p.limit.admits p.running.length = true) :
    p.startNext = { p with
      waiting := jobs.drop (m + 1)
      started := jobs.take (m + 1)
      running := p.running ++ [m] } := by
  rw [List.drop_eq_getElem_cons hm] at hwaiting
  have hlength : p.started.length = m := by rw [hstarted, List.length_take_of_le hm.le]
  rw [startNext, hwaiting]
  simp only [hadmits, if_true, hlength]
  rw [hstarted, List.take_append_getElem hm]

theorem startNext_of_not_admits (hadmits : p.limit.admits p.running.length = false) :
    p.startNext = p := by
  unfold startNext
  split
  · rfl
  · rw [if_neg (by simp [hadmits])]

theorem startNext_of_waiting_eq_nil (h : p.waiting = []) : p.startNext = p := by
  rw [startNext, h]

/-- The pool in which the first `m` jobs have just started. -/
def opening (limit : Limit) (jobs : List ι) (m : ℕ) : Pool ι ε α :=
  { limit, waiting := jobs.drop m, started := jobs.take m, running := List.range m, results := [],
    failure := none }

theorem startNext_opening (hm : m ≤ limit.opened jobs.length 0) :
    (opening limit jobs m : Pool ι ε α).startNext =
      opening limit jobs (min (limit.opened jobs.length 0) (m + 1)) := by
  rcases hm.eq_or_lt with rfl | hlt
  · rw [min_eq_left (Nat.le_succ _)]
    -- no more jobs start than there are, nor than the limit admits at a time
    rcases (limit.opened_le jobs.length 0).eq_or_lt with hall | hwaiting
    · exact startNext_of_waiting_eq_nil (by rw [opening, hall, List.drop_length])
    · refine startNext_of_not_admits ?_
      cases limit with
      | atMost n =>
        simp only [opening, Limit.opened, Limit.admits, List.length_range] at hwaiting ⊢
        exact decide_eq_false (by omega)
      | unlimited => exact absurd hwaiting (lt_irrefl _)
  · have hadmits : limit.admits m = true := by
      cases limit with
      | atMost n => exact decide_eq_true (hlt.trans_le (min_le_right _ _))
      | unlimited => rfl
    rw [min_eq_right hlt, startNext_of_lt (m := m) rfl rfl (hlt.trans_le (limit.opened_le _ _))
      (by simpa [opening] using hadmits)]
    simp [opening, List.range_succ]

/-- A free place goes to the next job, if there is one. -/
theorem startNext_refill {s : ℕ} (hlimit : p.limit = limit)
    (hwaiting : p.waiting = jobs.drop (limit.opened jobs.length s))
    (hstarted : p.started = jobs.take (limit.opened jobs.length s))
    (hfree : p.running.length + (s + 1) = limit.opened jobs.length s) :
    p.startNext = { p with
      waiting := jobs.drop (limit.opened jobs.length (s + 1))
      started := jobs.take (limit.opened jobs.length (s + 1))
      running := p.running ++
        (List.range (limit.opened jobs.length (s + 1))).drop (limit.opened jobs.length s) } := by
  have hopened := limit.opened_succ jobs.length s
  rcases (limit.opened_le jobs.length s).eq_or_lt with hall | hlt
  · -- nothing is waiting, and the place stays free
    have hsame : limit.opened jobs.length (s + 1) = limit.opened jobs.length s := by omega
    have hnone : p.waiting = [] := by rw [hwaiting, hall, List.drop_length]
    rw [startNext_of_waiting_eq_nil hnone, hsame, ← hwaiting, ← hstarted,
      List.drop_of_length_le List.length_range.le, List.append_nil]
  · have hnext : limit.opened jobs.length (s + 1) = limit.opened jobs.length s + 1 := by omega
    have hadmits : p.limit.admits p.running.length = true := by
      have hrunning : p.running.length = limit.opened jobs.length s - (s + 1) := by omega
      rw [hlimit, hrunning]
      exact Limit.admits_of_opened_lt hlt (by omega)
    rw [startNext_of_lt hwaiting hstarted hlt hadmits, hnext, List.range_succ,
      List.drop_append_of_le_length List.length_range.ge,
      List.drop_of_length_le List.length_range.le, List.nil_append]

/-- As many jobs have started in the beginning as the limit allows. -/
theorem ofJobs_eq_opening :
    (ofJobs limit jobs : Pool ι ε α) = opening limit jobs (limit.opened jobs.length 0) := by
  have hfold : ∀ (l : List ι) (m : ℕ), m ≤ limit.opened jobs.length 0 →
      l.foldl (fun (p : Pool ι ε α) _ ↦ p.startNext) (opening limit jobs m) =
        opening limit jobs (min (limit.opened jobs.length 0) (m + l.length)) := by
    intro l
    induction l with
    | nil => exact fun m hm ↦ by rw [List.foldl_nil, List.length_nil, Nat.add_zero, min_eq_right hm]
    | cons job l ih =>
      intro m hm
      rw [List.foldl_cons, startNext_opening hm, ih _ (min_le_left _ _), List.length_cons]
      congr 1
      omega
  have hall := hfold jobs 0 (Nat.zero_le _)
  rwa [Nat.zero_add, min_eq_left (limit.opened_le _ _)] at hall

/-! ### Endings -/

/-- The result that an ending notes. -/
def resultOf (ending : ℕ × Except ε α) : Option (ℕ × α) :=
  match ending.2 with
  | .ok a => some (ending.1, a)
  | .error _ => none

/-- The failure that an ending notes. -/
def failureOf (ending : ℕ × Except ε α) : Option ε :=
  match ending.2 with
  | .ok _ => none
  | .error e => some e

/-- The pool stands as the record of endings says. -/
structure IsAfter (limit : Limit) (jobs : List ι) (record : List (ℕ × Except ε α))
    (p : Pool ι ε α) : Prop where
  isRecord : IsRecord Prod.fst limit jobs.length record
  limit_eq : p.limit = limit
  started_eq : p.started = jobs.take (limit.opened jobs.length record.length)
  waiting_eq : p.waiting = jobs.drop (limit.opened jobs.length record.length)
  running_eq : p.running = inFlight Prod.fst limit jobs.length record
  results_eq : p.results = (record.filterMap resultOf).reverse
  failure_eq : p.failure = record.findSome? failureOf

theorem isAfter_ofJobs : (ofJobs limit jobs : Pool ι ε α).IsAfter limit jobs [] := by
  rw [ofJobs_eq_opening]
  refine ⟨isRecord_nil _ _ _, rfl, rfl, rfl, ?_, rfl, rfl⟩
  exact (List.filter_eq_self.2 fun i _ ↦ by simp).symm

/-- The pool in which an ending has been noted and its place is free. -/
def note (p : Pool ι ε α) (i : ℕ) (ending : Except ε α) : Pool ι ε α :=
  { p with
    running := p.running.erase i
    results := (resultOf (i, ending)).toList ++ p.results
    failure := p.failure.or (failureOf (i, ending)) }

theorem settle_of_isRunning (h : p.isRunning i = true) (ending : Except ε α) :
    p.settle i ending = (p.note i ending).startNext := by
  rw [settle, if_pos h]
  cases ending with
  | ok a => simp [note, resultOf, failureOf]
  | error e =>
    cases hfailure : p.failure <;> simp [note, resultOf, failureOf, hfailure]

theorem IsAfter.isRunning_iff (h : p.IsAfter limit jobs record) : p.isRunning i = true ↔
    i < limit.opened jobs.length record.length ∧ i ∉ record.map Prod.fst := by
  rw [isRunning, List.contains_iff_mem, h.running_eq, inFlight, List.mem_filter, List.mem_range,
    decide_eq_true_iff]

/-- Without an ended job, those in flight are those that the record is not about with it. -/
theorem erase_inFlight (limit : Limit) (jobs : ℕ) (record : List (ℕ × Except ε α)) (i : ℕ)
    (ending : Except ε α) : (inFlight Prod.fst limit jobs record).erase i =
      (List.range (limit.opened jobs record.length)).filter
        (· ∉ (record ++ [(i, ending)]).map Prod.fst) := by
  rw [inFlight, (List.nodup_range.filter _).erase_eq_filter, List.filter_filter]
  refine List.filter_congr fun j _ ↦ ?_
  rw [Bool.eq_iff_iff, Bool.and_eq_true, decide_eq_true_iff, decide_eq_true_iff, bne_iff_ne,
    List.map_append, List.mem_append, not_or, List.map_singleton, List.mem_singleton, and_comm]

/-- Those in flight after an ending: those left, and the job that takes the free place. -/
theorem inFlight_concat {ending : ℕ × Except ε α}
    (h : ∀ j ∈ (record ++ [ending]).map Prod.fst, j < limit.opened m record.length) :
    inFlight Prod.fst limit m (record ++ [ending]) =
      (List.range (limit.opened m record.length)).filter
          (· ∉ (record ++ [ending]).map Prod.fst) ++
        (List.range (limit.opened m (record.length + 1))).drop (limit.opened m record.length) := by
  have hnew : ∀ j ∈ (List.range (limit.opened m (record.length + 1))).drop
      (limit.opened m record.length), decide (j ∉ (record ++ [ending]).map Prod.fst) = true := by
    intro j hj
    obtain ⟨k, hk, rfl⟩ := List.mem_drop_iff_getElem.1 hj
    refine decide_eq_true fun hold ↦ ?_
    have hlt := h _ hold
    rw [List.getElem_range] at hlt
    omega
  have hsplit : List.range (limit.opened m (record.length + 1)) =
      List.range (limit.opened m record.length) ++
        (List.range (limit.opened m (record.length + 1))).drop (limit.opened m record.length) := by
    have htake : (List.range (limit.opened m (record.length + 1))).take
        (limit.opened m record.length) = List.range (limit.opened m record.length) := by
      rw [List.take_range, min_eq_left (limit.opened_le_opened_succ m record.length)]
    rw [← htake, List.take_append_drop]
  calc inFlight Prod.fst limit m (record ++ [ending])
      = (List.range (limit.opened m (record.length + 1))).filter
          (· ∉ (record ++ [ending]).map Prod.fst) := by
        rw [inFlight, List.length_append, List.length_singleton]
    _ = _ := by rw [hsplit, List.filter_append, ← hsplit, List.filter_eq_self.2 hnew]

/-- **One ending keeps the pool with the record.** -/
theorem IsAfter.settle (h : p.IsAfter limit jobs record) (i : ℕ) (ending : Except ε α) :
    (p.settle i ending).IsAfter limit jobs
      (accept Prod.fst limit jobs.length record (i, ending)) := by
  by_cases hrunning : p.isRunning i = true
  · have heffect := h.isRunning_iff.1 hrunning
    have hrecord := h.isRecord.accept (i, ending)
    rw [accept, if_pos heffect] at hrecord ⊢
    have hlength : (record ++ [(i, ending)]).length = record.length + 1 := List.length_append
    have hleft : (p.note i ending).running = (List.range (limit.opened jobs.length
        record.length)).filter (· ∉ (record ++ [(i, ending)]).map Prod.fst) := by
      rw [note, h.running_eq]
      exact erase_inFlight limit jobs.length record i ending
    -- the jobs in flight and those on the record are all that have started
    have hfree : (p.note i ending).running.length + (record.length + 1) =
        limit.opened jobs.length record.length := by
      have hmem : i ∈ p.running := List.contains_iff_mem.1 hrunning
      have hpos := List.length_pos_of_mem hmem
      have hflight := h.isRecord.length_inFlight
      rw [← h.running_eq] at hflight
      rw [note, List.length_erase_of_mem hmem]
      omega
    have hold : ∀ j ∈ (record ++ [(i, ending)]).map Prod.fst,
        j < limit.opened jobs.length record.length := by
      intro j hj
      rw [List.map_append, List.mem_append] at hj
      rcases hj with hj | hj
      · exact h.isRecord.lt_opened j hj
      · exact List.mem_singleton.1 hj ▸ heffect.1
    rw [settle_of_isRunning hrunning,
      startNext_refill (p := p.note i ending) h.limit_eq h.waiting_eq h.started_eq hfree]
    refine ⟨hrecord, h.limit_eq, ?_, ?_, ?_, ?_, ?_⟩
    · rw [hlength]
    · rw [hlength]
    · rw [inFlight_concat hold, ← hleft]
    · rw [note, h.results_eq]
      cases ending <;> simp [resultOf]
    · rw [note, h.failure_eq, List.findSome?_append]
      cases ending <;> simp [failureOf]
  · have heffect := mt h.isRunning_iff.2 hrunning
    rw [Pool.settle, if_neg hrunning, accept, if_neg heffect]
    exact h

/-- **Every run keeps the pool with the record.** -/
theorem IsAfter.settleAll (h : p.IsAfter limit jobs record) (endings : List (ℕ × Except ε α)) :
    (p.settleAll endings).IsAfter limit jobs
      (endings.foldl (accept Prod.fst limit jobs.length) record) := by
  induction endings generalizing p record with
  | nil => exact h
  | cons ending endings ih => exact ih (h.settle ending.1 ending.2)

/-- What a run from the beginning comes to is told by the endings that take effect. -/
theorem isAfter_settleAll (limit : Limit) (jobs : List ι) (endings : List (ℕ × Except ε α)) :
    ((ofJobs limit jobs).settleAll endings).IsAfter limit jobs
      (effective Prod.fst limit jobs.length endings) :=
  isAfter_ofJobs.settleAll endings

/-! ### The outcome -/

theorem IsAfter.size_eq (h : p.IsAfter limit jobs record) : p.size = jobs.length := by
  rw [size, h.started_eq, h.waiting_eq, List.length_take, List.length_drop]
  have hle := limit.opened_le jobs.length record.length
  omega

theorem length_filterMap_resultOf (h : record.findSome? failureOf = none) :
    (record.filterMap resultOf).length = record.length := by
  refine List.filterMap_length_eq_length.2 fun ending hending ↦ ?_
  have hgood := List.findSome?_eq_none_iff.1 h ending hending
  obtain ⟨i, a | e⟩ := ending
  · cases hgood
  · rfl

/-- **The outcome is told by the record**: the first failure on it or, when all jobs are on it, the
results. -/
theorem IsAfter.outcome_eq (h : p.IsAfter limit jobs record) : p.outcome =
    match record.findSome? failureOf with
    | some e => some (.error e)
    | none => if record.length = jobs.length then some (.ok p.ordered) else none := by
  rw [outcome, h.failure_eq]
  cases hfailure : record.findSome? failureOf with
  | some e => rfl
  | none =>
    simp only [h.results_eq, List.length_reverse, length_filterMap_resultOf hfailure, h.size_eq]

/-- When every job that ends does so with a result of its own, the results are in the order of the
jobs, whatever the order of the endings. -/
theorem IsAfter.outcome_of_ok {f : ℕ → α} {done : List ℕ}
    (h : p.IsAfter limit jobs (done.map fun i ↦ (i, .ok (f i)))) : p.outcome =
      if done.length = jobs.length then some (.ok ((List.range jobs.length).map f)) else none := by
  have hfailure : (done.map fun i ↦ ((i, .ok (f i)) : ℕ × Except ε α)).findSome? failureOf =
      none := by
    refine List.findSome?_eq_none_iff.2 fun ending hending ↦ ?_
    obtain ⟨i, -, rfl⟩ := List.mem_map.1 hending
    rfl
  have hall : done.length = jobs.length → p.ordered = (List.range jobs.length).map f := by
    intro hlength
    have hmem : ∀ i ∈ List.range jobs.length, i ∈ done.reverse := by
      intro i hi
      have hdone := h.isRecord.mem_of_length_eq (List.length_map .. |>.trans hlength)
        (List.mem_range.1 hi)
      rw [List.map_map] at hdone
      exact List.mem_reverse.2 (by simpa using hdone)
    have hresults : p.results = done.reverse.map fun i ↦ (i, f i) := by
      rw [h.results_eq, List.filterMap_map, List.map_reverse]
      exact congrArg List.reverse (congrFun List.filterMap_eq_map' done)
    rw [ordered, h.size_eq, hresults]
    calc (List.range jobs.length).filterMap (fun i ↦ (done.reverse.map fun j ↦ (j, f j)).lookup i)
        = (List.range jobs.length).filterMap fun i ↦ some (f i) :=
          List.filterMap_congr fun i hi ↦ List.lookup_graph f (hmem i hi)
      _ = (List.range jobs.length).map f := congrFun List.filterMap_eq_map' _
  rw [h.outcome_eq, hfailure, List.length_map]
  by_cases hlength : done.length = jobs.length
  · simp only [if_pos hlength, hall hlength]
  · simp only [if_neg hlength]

end Pool

end IndexSnapshot.Scan
