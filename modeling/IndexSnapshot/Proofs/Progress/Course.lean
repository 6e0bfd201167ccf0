import IndexSnapshot.Progress
import IndexSnapshot.Proofs.Number.Count

/-!
# The course of a progress

Between its start and its end a run shows items and counts the ones that are done, in whatever
mixture its jobs make of the two (`Progress.Course`). What listeners hear of such steps keeps the
two apart again: the items in the order in which they were shown (`Course.displays`), and every
count from one on, each together with the total (`Course.advances`). No mixture makes a count skip a
number.

A course counts from zero, since the start of a run forgets what was counted before. So a progress
that runs share stays within its total (`Progress.StaysWithin`) as long as no run counts more items
than it started with.
-/

namespace IndexSnapshot.Progress

-- counts are compared as they are written, and never computed
attribute [local irreducible] Binary64.ofNat

/-! ### Steps and events -/

theorem applyAll_cons (p : Progress) (step : Step) (steps : List Step) :
    p.applyAll (step :: steps) = (p.apply step).applyAll steps :=
  rfl

theorem events_cons (p : Progress) (step : Step) (steps : List Step) :
    p.events (step :: steps) = p.event step :: (p.apply step).events steps :=
  rfl

/-- A start forgets what was counted before. -/
theorem completed_apply_start (p : Progress) (total : Binary64) :
    (p.apply (.start total)).completed = .ofNat 0 :=
  rfl

theorem total_apply_start (p : Progress) (total : Binary64) :
    (p.apply (.start total)).total = total :=
  rfl

theorem applyAll_append (p : Progress) (steps later : List Step) :
    p.applyAll (steps ++ later) = (p.applyAll steps).applyAll later :=
  List.foldl_append

/-- What listeners hear of some steps does not depend on later ones. -/
theorem events_append (p : Progress) (steps later : List Step) :
    p.events (steps ++ later) = p.events steps ++ (p.applyAll steps).events later := by
  induction steps generalizing p with
  | nil => rfl
  | cons step steps ih =>
    rw [List.cons_append, events_cons, ih, events_cons, applyAll_cons, List.cons_append]

namespace Event

/-- The item that an event shows. -/
def displayed? : Event → Option String
  | displayed message => some message
  | _ => none

/-- The count that an event tells, and the total with it. -/
def advanced? : Event → Option (Binary64 × Binary64)
  | advanced completed total => some (completed, total)
  | _ => none

/-- The event belongs to the course of a run, neither to its start nor to its end. -/
def IsCourse (e : Event) : Prop := (∃ message, e = displayed message) ∨ ∃ c t, e = advanced c t

end Event

/-! ### Courses -/

/-- Steps that show the given items in their order and count so many single ones done. -/
inductive Course : List String → ℕ → List Step → Prop
  | nil : Course [] 0 []
  | display {shown : List String} {done : ℕ} {steps : List Step} (h : Course shown done steps)
      (name : String) : Course (shown ++ [name]) done (steps ++ [.display name])
  | advance {shown : List String} {done : ℕ} {steps : List Step} (h : Course shown done steps) :
      Course shown (done + 1) (steps ++ [.advance 1])

namespace Course

variable {p : Progress} {shown : List String} {done : ℕ} {steps points : List Step}

theorem displayAll (h : Course shown done steps) (names : List String) :
    Course (shown ++ names) done (steps ++ names.map .display) := by
  induction names generalizing shown steps with
  | nil => rwa [List.append_nil, List.map_nil, List.append_nil]
  | cons name names ih =>
    rw [List.append_cons shown, List.map_cons, List.append_cons steps]
    exact ih (h.display name)

/-- What has happened at some point of a course is a course. -/
theorem exists_of_prefix (h : Course shown done steps) (hpoints : points <+: steps) :
    ∃ shown' done', done' ≤ done ∧ Course shown' done' points := by
  induction h with
  | nil =>
    rw [List.prefix_nil.1 hpoints]
    exact ⟨[], 0, le_rfl, .nil⟩
  | display h name ih =>
    rcases List.prefix_concat_iff.1 hpoints with rfl | hpoints
    · exact ⟨_, _, le_rfl, h.display name⟩
    · exact ih hpoints
  | advance h ih =>
    rcases List.prefix_concat_iff.1 hpoints with rfl | hpoints
    · exact ⟨_, _, le_rfl, h.advance⟩
    · obtain ⟨shown', done', hle, hcourse⟩ := ih hpoints
      exact ⟨shown', done', hle.trans (Nat.le_succ _), hcourse⟩

theorem total_applyAll (h : Course shown done steps) (p : Progress) :
    (p.applyAll steps).total = p.total := by
  induction h with
  | nil => rfl
  | display h name ih => rw [applyAll_append]; exact ih
  | advance h ih => rw [applyAll_append]; exact ih

/-- **What has been counted is what is done.** -/
theorem completed_applyAll (h : Course shown done steps) (hp : p.completed = .ofNat 0)
    (hdone : done ≤ Binary64.exactCounts) : (p.applyAll steps).completed = .ofNat done := by
  induction h with
  | nil => exact hp
  | display h name ih => rw [applyAll_append]; exact ih hdone
  | @advance shown done steps h ih =>
    rw [applyAll_append]
    show (p.applyAll steps).completed + .ofNat 1 = .ofNat (done + 1)
    rw [ih (Nat.le_of_succ_le hdone), Binary64.ofNat_add_ofNat hdone]

/-- **Items are heard of in the order in which they were shown.** -/
theorem displays (h : Course shown done steps) (p : Progress) :
    (p.events steps).filterMap Event.displayed? = shown := by
  induction h with
  | nil => rfl
  | display h name ih => rw [events_append, List.filterMap_append, ih]; rfl
  | advance h ih => rw [events_append, List.filterMap_append, ih]; exact List.append_nil _

/-- **Every count is heard of once and in order**, together with the total. -/
theorem advances (h : Course shown done steps) (hp : p.completed = .ofNat 0)
    (hdone : done ≤ Binary64.exactCounts) : (p.events steps).filterMap Event.advanced? =
      (List.range done).map fun i ↦ (.ofNat (i + 1), p.total) := by
  induction h with
  | nil => rfl
  | display h name ih =>
    rw [events_append, List.filterMap_append, ih hdone]
    exact List.append_nil _
  | @advance shown done steps h ih =>
    have hcount : (p.applyAll steps).completed + .ofNat 1 = .ofNat (done + 1) := by
      rw [h.completed_applyAll hp (Nat.le_of_succ_le hdone), Binary64.ofNat_add_ofNat hdone]
    rw [events_append, List.filterMap_append, ih (Nat.le_of_succ_le hdone), List.range_succ,
      List.map_append]
    show _ ++ [((p.applyAll steps).completed + .ofNat 1, (p.applyAll steps).total)] = _
    rw [hcount, h.total_applyAll p]
    rfl

theorem isCourse_of_mem_events (h : Course shown done steps) (p : Progress) :
    ∀ e ∈ p.events steps, e.IsCourse := by
  induction h with
  | nil => exact fun e he ↦ absurd he List.not_mem_nil
  | display h name ih =>
    rw [events_append]
    exact List.forall_mem_append.2 ⟨ih, List.forall_mem_singleton.2 (.inl ⟨name, rfl⟩)⟩
  | advance h ih =>
    rw [events_append]
    exact List.forall_mem_append.2 ⟨ih, List.forall_mem_singleton.2 (.inr ⟨_, _, rfl⟩)⟩

end Course

/-! ### Totals -/

/-- No more is done than there is to do. -/
def IsWithin (p : Progress) : Prop :=
  ∃ done total : ℕ, p.completed.toInt? = some (done : ℤ) ∧ p.total.toInt? = some (total : ℤ) ∧
    done ≤ total

/-- At no point of the steps is more done than there is to do. -/
def StaysWithin (p : Progress) (steps : List Step) : Prop :=
  ∀ points, points <+: steps → (p.applyAll points).IsWithin

variable {p : Progress} {steps later : List Step}

theorem isWithin_of_eq {done total : ℕ} (hdone : p.completed = .ofNat done)
    (htotal : p.total = .ofNat total) (hle : done ≤ total) (hexact : total ≤ Binary64.exactCounts) :
    p.IsWithin :=
  ⟨done, total, by rw [hdone, Binary64.toInt?_ofNat (hle.trans hexact)],
    by rw [htotal, Binary64.toInt?_ofNat hexact], hle⟩

theorem StaysWithin.append (h : p.StaysWithin steps)
    (hlater : (p.applyAll steps).StaysWithin later) :
    p.StaysWithin (steps ++ later) := by
  intro points hpoints
  rcases List.prefix_or_prefix_of_prefix hpoints (List.prefix_append steps later) with
    hbefore | ⟨points, rfl⟩
  · exact h points hbefore
  · rw [applyAll_append]
    exact hlater points ((List.prefix_append_right_inj steps).1 hpoints)

/-- **A course that counts no more than it started with stays within its total**, whatever was
counted before the start. -/
theorem Course.staysWithin {shown : List String} {done total : ℕ} (h : Course shown done steps)
    (hp : p.IsWithin) (hdone : done ≤ total) (hexact : total ≤ Binary64.exactCounts) :
    p.StaysWithin (.start (.ofNat total) :: steps) := by
  intro points hpoints
  rcases List.prefix_cons_iff.1 hpoints with rfl | ⟨points, rfl, hsteps⟩
  · exact hp
  · obtain ⟨shown', done', hle, hcourse⟩ := h.exists_of_prefix hsteps
    have hle := hle.trans hdone
    rw [applyAll_cons]
    exact isWithin_of_eq
      (hcourse.completed_applyAll (completed_apply_start p _) (hle.trans hexact))
      ((hcourse.total_applyAll _).trans (total_apply_start p _)) hle hexact

end IndexSnapshot.Progress
