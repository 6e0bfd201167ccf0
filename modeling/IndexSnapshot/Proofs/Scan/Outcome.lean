import IndexSnapshot.Proofs.Scan.Places
import Mathlib.Data.List.OfFn
import Mathlib.Tactic.IntervalCases

/-!
# The outcome of a pool

The endings that took effect decide the outcome (`Pool.Decided`): it is the first failure among them
or, when every job has ended well, the list in which each result stands at the place of its job.
Before either it is open, and afterwards no ending changes it.

Neither the limit nor the order of endings is seen in the results: two runs in which every job ends
with the same result come to the same outcome, since a list is known by what stands at each place.
-/

namespace IndexSnapshot.Scan.Pool

variable {ι ε α : Type} {p : Pool ι ε α} {limit : Limit} {jobs : List ι}
  {record : List (ℕ × Except ε α)}

/-! ### Failures on a record -/

/-- No ending on the record is a failure. -/
def AllGood (record : List (ℕ × Except ε α)) : Prop :=
  ∀ ending ∈ record, ∃ a, ending.2 = .ok a

theorem failureOf_eq_none {ending : ℕ × Except ε α} :
    failureOf ending = none ↔ ∃ a, ending.2 = .ok a := by
  obtain ⟨i, e | a⟩ := ending
  · simp [failureOf]
  · simp [failureOf]

theorem findSome?_failureOf_eq_none : record.findSome? failureOf = none ↔ AllGood record := by
  rw [List.findSome?_eq_none_iff]
  exact forall₂_congr fun _ _ ↦ failureOf_eq_none

/-- The first failure of a record is the first ending that is not good. -/
theorem findSome?_failureOf_append {before after : List (ℕ × Except ε α)} {i : ℕ} {e : ε}
    (h : AllGood before) :
    (before ++ (i, .error e) :: after).findSome? failureOf = some e := by
  rw [List.findSome?_append, findSome?_failureOf_eq_none.2 h]
  rfl

theorem IsAfter.outcome_of_failure (h : p.IsAfter limit jobs record) {e : ε}
    (hfailure : record.findSome? failureOf = some e) : p.outcome = some (.error e) := by
  rw [h.outcome_eq, hfailure]

theorem IsAfter.outcome_of_allGood (h : p.IsAfter limit jobs record) (hgood : AllGood record) :
    p.outcome = if record.length = jobs.length then some (.ok p.ordered) else none := by
  rw [h.outcome_eq, findSome?_failureOf_eq_none.2 hgood]

/-! ### Results -/

/-- The endings on a record without failures, as a function of the job. -/
theorem exists_eq_map_ok (hnodup : (record.map Prod.fst).Nodup) (hgood : AllGood record)
    (hne : record ≠ []) :
    ∃ f : ℕ → α, record = (record.map Prod.fst).map fun i ↦ (i, .ok (f i)) := by
  obtain ⟨a, -⟩ := hgood _ (List.head_mem hne)
  have hpoint : ∀ i, ∃ a, ∀ ending ∈ record, ending.1 = i → ending.2 = .ok a := by
    intro i
    by_cases hi : i ∈ record.map Prod.fst
    · obtain ⟨ending, hending, rfl⟩ := List.mem_map.1 hi
      obtain ⟨b, hb⟩ := hgood ending hending
      refine ⟨b, fun other hother hsame ↦ ?_⟩
      rw [List.inj_on_of_nodup_map hnodup hother hending hsame, hb]
    · exact ⟨a, fun ending hending hsame ↦ absurd (List.mem_map.2 ⟨ending, hending, hsame⟩) hi⟩
  choose f hf using hpoint
  refine ⟨f, ?_⟩
  rw [List.map_map]
  refine (List.map_id record).symm.trans (List.map_congr_left fun ending hending ↦ ?_)
  exact Prod.ext rfl (hf ending.1 ending hending rfl)

/-- When all jobs have ended well, the results are theirs, each at the place of its job. -/
theorem IsAfter.exists_results (h : p.IsAfter limit jobs record) (hgood : AllGood record)
    (hlength : record.length = jobs.length) : ∃ results : List α,
      p.outcome = some (.ok results) ∧ results.length = jobs.length ∧
        ∀ i (hi : i < results.length), (i, .ok results[i]) ∈ record := by
  -- without jobs there need not be any result to take a function from
  by_cases hempty : record = []
  · refine ⟨p.ordered, by rw [h.outcome_of_allGood hgood, if_pos hlength], ?_⟩
    have hnone : p.ordered = [] := by
      rw [ordered, h.size_eq, ← hlength, hempty]
      rfl
    rw [hnone]
    exact ⟨by rw [← hlength, hempty]; rfl, fun i hi ↦ absurd hi (Nat.not_lt_zero i)⟩
  · obtain ⟨f, hf⟩ := exists_eq_map_ok h.isRecord.nodup hgood hempty
    have hafter : p.IsAfter limit jobs ((record.map Prod.fst).map fun i ↦ (i, .ok (f i))) := by
      rwa [← hf]
    have houtcome : p.outcome = some (.ok ((List.range jobs.length).map f)) := by
      rw [hafter.outcome_of_ok, List.length_map, if_pos hlength]
    refine ⟨(List.range jobs.length).map f, houtcome, by simp, fun i hi ↦ ?_⟩
    rw [List.length_map, List.length_range] at hi
    have hmem : i ∈ record.map Prod.fst := h.isRecord.mem_of_length_eq hlength hi
    rw [hf]
    simpa using hmem

/-- A result for every job ends all of them, and well. -/
theorem IsAfter.allGood_of_results (h : p.IsAfter limit jobs record) {results : List α}
    (hlength : results.length = jobs.length)
    (hmem : ∀ i (hi : i < results.length), (i, .ok results[i]) ∈ record) :
    AllGood record ∧ record.length = jobs.length := by
  have hlt : ∀ i ∈ record.map Prod.fst, i < jobs.length := fun i hi ↦
    (h.isRecord.lt_opened i hi).trans_le (limit.opened_le _ _)
  refine ⟨fun ending hending ↦ ?_, ?_⟩
  · have hresult := hmem ending.1 (hlength ▸ hlt _ (List.mem_map_of_mem hending))
    exact ⟨_, congrArg Prod.snd (List.inj_on_of_nodup_map h.isRecord.nodup hending hresult rfl)⟩
  · -- no job has ended twice, so that as many endings are on the record as there are jobs
    have hperm : (record.map Prod.fst).Perm (List.range jobs.length) := by
      refine (List.perm_ext_iff_of_nodup h.isRecord.nodup List.nodup_range).2 fun i ↦ ?_
      rw [List.mem_range]
      exact ⟨hlt i, fun hi ↦ List.mem_map.2 ⟨_, hmem i (hlength ▸ hi), rfl⟩⟩
    simpa using hperm.length_eq

theorem IsAfter.outcome_eq_ok_iff (h : p.IsAfter limit jobs record) (results : List α) :
    p.outcome = some (.ok results) ↔ results.length = jobs.length ∧
      ∀ i (hi : i < results.length), (i, .ok results[i]) ∈ record := by
  constructor
  · intro hok
    have hdecided := h.outcome_eq
    rw [hok] at hdecided
    split at hdecided
    · cases hdecided
    · rename_i hnone
      split at hdecided
      · rename_i hlength
        obtain ⟨found, hfound, hall⟩ :=
          h.exists_results (findSome?_failureOf_eq_none.1 hnone) hlength
        rw [hok] at hfound
        cases hfound
        exact hall
      · cases hdecided
  · rintro ⟨hlength, hmem⟩
    obtain ⟨hgood, hall⟩ := h.allGood_of_results hlength hmem
    obtain ⟨found, hfound, hlength', hmem'⟩ := h.exists_results hgood hall
    have hsame : found = results := by
      refine List.ext_getElem (hlength'.trans hlength.symm) fun i hi hi' ↦ ?_
      have hboth := List.inj_on_of_nodup_map h.isRecord.nodup (hmem' i hi) (hmem i hi') rfl
      exact Except.ok.inj (Prod.ext_iff.1 hboth).2
    rw [hfound, hsame]

/-! ### Decisions -/

/-- How the endings on the record decide the outcome. -/
structure Decided (jobs : List ι) (record : List (ℕ × Except ε α)) (p : Pool ι ε α) : Prop where
  /-- The outcome is open as long as nothing has failed and some job has not ended. -/
  open_iff : p.outcome = none ↔ AllGood record ∧ record.length < jobs.length
  /-- The first failure is the outcome. -/
  failed : ∀ before i e after, record = before ++ (i, .error e) :: after → AllGood before →
    p.outcome = some (.error e)
  /-- When all jobs have ended well, there are results. -/
  succeeded : AllGood record → record.length = jobs.length →
    ∃ results, p.outcome = some (.ok results)
  /-- The results are those of all jobs, each at the place of its job. -/
  results_iff : ∀ results, p.outcome = some (.ok results) ↔ results.length = jobs.length ∧
    ∀ i (hi : i < results.length), (i, .ok results[i]) ∈ record
  /-- No ending changes an outcome. -/
  settleAll_eq : ∀ more outcome, p.outcome = some outcome →
    (p.settleAll more).outcome = some outcome

theorem settleAll_of_running_eq_nil (h : p.running = []) (endings : List (ℕ × Except ε α)) :
    p.settleAll endings = p := by
  induction endings with
  | nil => rfl
  | cons ending endings ih =>
    have hsame : p.settle ending.1 ending.2 = p :=
      settle_of_not_mem (h ▸ List.not_mem_nil) ending.2
    show (p.settle ending.1 ending.2).settleAll endings = p
    rw [hsame, ih]

theorem IsAfter.findSome?_of_outcome_eq_error (h : p.IsAfter limit jobs record) {e : ε}
    (houtcome : p.outcome = some (.error e)) : record.findSome? failureOf = some e := by
  rw [h.outcome_eq] at houtcome
  split at houtcome
  · rename_i e' hfailure
    cases houtcome
    exact hfailure
  · split at houtcome <;> cases houtcome

/-- A failure stays the first one, and behind the last job there is nothing left to end. -/
theorem IsAfter.outcome_settleAll (h : p.IsAfter limit jobs record)
    (more : List (ℕ × Except ε α)) {outcome : Except ε (List α)}
    (houtcome : p.outcome = some outcome) : (p.settleAll more).outcome = some outcome := by
  cases outcome with
  | error e =>
    refine (h.append_applied more).outcome_of_failure ?_
    rw [List.findSome?_append, h.findSome?_of_outcome_eq_error houtcome, Option.some_or]
  | ok results =>
    obtain ⟨hlength, hmem⟩ := (h.outcome_eq_ok_iff results).1 houtcome
    have hall := (h.allGood_of_results hlength hmem).2
    have hflight := h.isRecord.length_inFlight
    have hle := limit.opened_le jobs.length record.length
    -- all jobs have ended, so that further endings find nothing running
    have hnone : p.running = [] := by
      rw [h.running_eq, ← List.length_eq_zero_iff]
      omega
    rw [settleAll_of_running_eq_nil hnone, houtcome]

theorem IsAfter.outcome_eq_none_iff (h : p.IsAfter limit jobs record) :
    p.outcome = none ↔ AllGood record ∧ record.length < jobs.length := by
  have hflight := h.isRecord.length_inFlight
  have hopened := limit.opened_le jobs.length record.length
  have hle : record.length ≤ jobs.length := by omega
  rw [h.outcome_eq, ← findSome?_failureOf_eq_none, hle.lt_iff_ne]
  cases record.findSome? failureOf with
  | some e => simp
  | none => simp

theorem IsAfter.decided (h : p.IsAfter limit jobs record) : p.Decided jobs record where
  open_iff := h.outcome_eq_none_iff
  failed := by
    rintro before i e after rfl hgood
    exact h.outcome_of_failure (findSome?_failureOf_append hgood)
  succeeded hgood hlength := ⟨p.ordered, by rw [h.outcome_of_allGood hgood, if_pos hlength]⟩
  results_iff := h.outcome_eq_ok_iff
  settleAll_eq more _ := h.outcome_settleAll more

/-- When each job has ended with its result, the outcome lists them. -/
theorem IsAfter.outcome_of_forall_mem (h : p.IsAfter limit jobs record) {f : Fin jobs.length → α}
    (hmem : ∀ i : Fin jobs.length, ((i : ℕ), .ok (f i)) ∈ record) :
    p.outcome = some (.ok (List.ofFn f)) := by
  refine (h.outcome_eq_ok_iff _).2 ⟨List.length_ofFn, fun i hi ↦ ?_⟩
  rw [List.getElem_ofFn]
  exact hmem ⟨i, by simpa using hi⟩

/-- **The endings that take effect decide the outcome**, and the results depend on nothing but what
each job ends with: not on the order of the endings, and not on the limit. -/
theorem decided_settleAll (limit : Limit) (jobs : List ι) (endings : List (ℕ × Except ε α)) :
    ((ofJobs limit jobs).settleAll endings).Decided jobs
        (effective Prod.fst limit jobs.length endings) ∧
      ∀ (limit' : Limit) (others : List (ℕ × Except ε α)),
        (∀ i < jobs.length, ∃ a, (i, .ok a) ∈ effective Prod.fst limit jobs.length endings ∧
          (i, .ok a) ∈ effective Prod.fst limit' jobs.length others) →
        ((ofJobs limit' jobs).settleAll others).outcome =
          ((ofJobs limit jobs).settleAll endings).outcome := by
  refine ⟨(isAfter_settleAll limit jobs endings).decided, fun limit' others hsame ↦ ?_⟩
  choose f hf hf' using fun i : Fin jobs.length ↦ hsame i i.isLt
  rw [(isAfter_settleAll limit jobs endings).outcome_of_forall_mem hf,
    (isAfter_settleAll limit' jobs others).outcome_of_forall_mem hf']

/-- Results of three jobs, none of them in its place. -/
def sampleResults : List (ℕ × Except String String) := [(1, .ok "b"), (2, .ok "c"), (0, .ok "a")]

/-- The same results in another order, with an ending in between that comes too late. -/
def sampleOthers : List (ℕ × Except String String) :=
  [(2, .ok "c"), (0, .ok "a"), (2, .error "late"), (1, .ok "b")]

/-- Three jobs come to the same outcome under two places and under no limit. -/
theorem decided_sampleResults :
    ((ofJobs (.atMost 2) ["x", "y", "z"]).settleAll sampleResults).Decided ["x", "y", "z"]
        (effective Prod.fst (.atMost 2) 3 sampleResults) ∧
      ((ofJobs .unlimited ["x", "y", "z"]).settleAll sampleOthers).outcome =
        ((ofJobs (.atMost 2) ["x", "y", "z"]).settleAll sampleResults).outcome := by
  obtain ⟨hdecided, hsame⟩ := decided_settleAll (.atMost 2) ["x", "y", "z"] sampleResults
  refine ⟨hdecided, hsame .unlimited sampleOthers fun i hi ↦ ?_⟩
  have hi : i < 3 := hi
  interval_cases i
  · exact ⟨"a", by decide, by decide⟩
  · exact ⟨"b", by decide, by decide⟩
  · exact ⟨"c", by decide, by decide⟩

end IndexSnapshot.Scan.Pool
