import IndexSnapshot.Proofs.Retention.Budget

/-!
# Budgets compose

A list that was thinned out with one budget can be thinned out again with another. The classes left
are those that the smaller of the two budgets leaves by itself (`greedy_greedy`). So a budget that
is applied twice drops nothing the second time, and what a budget keeps every larger one keeps.

The second fact is not plain. A larger budget admits more pre-releases, and these could use up the
room of a stable version that the smaller budget kept. Two runs over the same classes are compared
class by class instead. As long as the smaller budget is not spent, the run with the larger one is
ahead by unstable classes only, and it gets ahead only when half of the smaller budget has gone to
unstable classes (`Trails`). That leaves it room for whatever the smaller budget takes.
-/

namespace IndexSnapshot.Retention

variable {k k' : ℕ} {newer newer' cls : List (List Candidate)} {cl : List Candidate}

/-! ### One class -/

/-- The greedy choice takes the class when the newer ones are taken already. -/
def Takes (k : ℕ) (newer : List (List Candidate)) (cl : List Candidate) : Prop :=
  newer.length < k ∧ (isStableClass cl = true ∨ unstableCount newer < k / 2)

theorem greedy_cons_of_takes (h : Takes k newer cl) :
    greedy k newer (cl :: cls) = cl :: greedy k (newer ++ [cl]) cls :=
  if_pos h

theorem greedy_cons_of_not_takes (h : ¬ Takes k newer cl) :
    greedy k newer (cl :: cls) = greedy k newer cls :=
  if_neg h

/-- There is room for an unstable class that is taken. -/
theorem Takes.lt_half (h : Takes k newer cl) (hstable : isStableClass cl = false) :
    unstableCount newer < k / 2 := by
  simpa [hstable] using h.2

theorem length_concat (newer : List (List Candidate)) (cl : List Candidate) :
    (newer ++ [cl]).length = newer.length + 1 := List.length_append

/-! ### Two runs side by side -/

/-- The classes taken in two runs over the same classes, the first with the smaller budget: the
second run is ahead by unstable classes only, and only after the first has taken as many of them as
it may. -/
structure Trails (k k' : ℕ) (newer newer' : List (List Candidate)) : Prop where
  ahead_by_unstable :
    newer'.length + unstableCount newer = newer.length + unstableCount newer'
  le : unstableCount newer ≤ unstableCount newer'
  level_or_full : unstableCount newer = unstableCount newer' ∨ unstableCount newer = k / 2
  le_half : unstableCount newer ≤ k / 2
  le_half' : unstableCount newer' ≤ k' / 2

theorem trails_nil : Trails k k' [] [] :=
  ⟨rfl, le_rfl, .inl rfl, Nat.zero_le _, Nat.zero_le _⟩

namespace Trails

/-- **The larger budget has room for what the smaller one takes.** -/
theorem takes (h : Trails k k' newer newer') (hk : k ≤ k') (htakes : Takes k newer cl) :
    Takes k' newer' cl := by
  obtain ⟨hahead, hle, hlevel, hhalf, hhalf'⟩ := h
  obtain ⟨hlt, hroom⟩ := htakes
  refine ⟨by omega, hroom.imp_right fun hunstable ↦ ?_⟩
  omega

/-- Both runs take the class. -/
theorem concat (h : Trails k k' newer newer') (htakes : Takes k newer cl)
    (htakes' : Takes k' newer' cl) : Trails k k' (newer ++ [cl]) (newer' ++ [cl]) := by
  obtain ⟨hahead, hle, hlevel, hhalf, hhalf'⟩ := h
  cases hstable : isStableClass cl with
  | true =>
    have hcount : unstableCount (newer ++ [cl]) = unstableCount newer :=
      unstableCount_concat_of_stable hstable
    have hcount' : unstableCount (newer' ++ [cl]) = unstableCount newer' :=
      unstableCount_concat_of_stable hstable
    have hlength := length_concat newer cl
    have hlength' := length_concat newer' cl
    constructor <;> omega
  | false =>
    have hcount : unstableCount (newer ++ [cl]) = unstableCount newer + 1 :=
      unstableCount_concat_of_unstable hstable
    have hcount' : unstableCount (newer' ++ [cl]) = unstableCount newer' + 1 :=
      unstableCount_concat_of_unstable hstable
    have hlength := length_concat newer cl
    have hlength' := length_concat newer' cl
    have hroom := htakes.lt_half hstable
    have hroom' := htakes'.lt_half hstable
    constructor <;> omega

/-- Only the run with the larger budget takes the class: the other has no room for it. -/
theorem concat_right (h : Trails k k' newer newer') (hlt : newer.length < k)
    (htakes : ¬ Takes k newer cl) (htakes' : Takes k' newer' cl) :
    Trails k k' newer (newer' ++ [cl]) := by
  obtain ⟨hahead, hle, hlevel, hhalf, hhalf'⟩ := h
  have hstable : isStableClass cl = false :=
    Bool.eq_false_iff.2 fun hstable ↦ htakes ⟨hlt, .inl hstable⟩
  have hfull : k / 2 ≤ unstableCount newer :=
    Nat.le_of_not_lt fun hroom ↦ htakes ⟨hlt, .inr hroom⟩
  have hroom' := htakes'.lt_half hstable
  have hcount' : unstableCount (newer' ++ [cl]) = unstableCount newer' + 1 :=
    unstableCount_concat_of_unstable hstable
  have hlength' := length_concat newer' cl
  constructor <;> omega

end Trails

/-! ### Budgets one after the other -/

/-- **A smaller budget takes the same classes before and after a larger one.** -/
theorem greedy_greedy_of_le (hk : k ≤ k') (h : newer.length < k → Trails k k' newer newer') :
    greedy k newer (greedy k' newer' cls) = greedy k newer cls := by
  induction cls generalizing newer newer' with
  | nil => rfl
  | cons cl cls ih =>
    rcases Nat.lt_or_ge newer.length k with hlt | hspent
    · by_cases htakes' : Takes k' newer' cl
      · rw [greedy_cons_of_takes htakes']
        by_cases htakes : Takes k newer cl
        · rw [greedy_cons_of_takes htakes, greedy_cons_of_takes htakes,
            ih fun _ ↦ (h hlt).concat htakes htakes']
        · rw [greedy_cons_of_not_takes htakes, greedy_cons_of_not_takes htakes,
            ih fun _ ↦ (h hlt).concat_right hlt htakes htakes']
      · have htakes : ¬ Takes k newer cl := fun htakes ↦ htakes' ((h hlt).takes hk htakes)
        rw [greedy_cons_of_not_takes htakes', greedy_cons_of_not_takes htakes, ih h]
    · rw [greedy_eq_nil_of_le hspent, greedy_eq_nil_of_le hspent]

/-- A larger budget takes all that a smaller one has left. -/
theorem greedy_greedy_of_ge (hk : k' ≤ k) :
    greedy k newer (greedy k' newer cls) = greedy k' newer cls := by
  induction cls generalizing newer with
  | nil => rfl
  | cons cl cls ih =>
    by_cases htakes' : Takes k' newer cl
    · have htakes : Takes k newer cl :=
        ⟨htakes'.1.trans_le hk, htakes'.2.imp_right fun h ↦ h.trans_le (Nat.div_le_div_right hk)⟩
      rw [greedy_cons_of_takes htakes', greedy_cons_of_takes htakes, ih]
    · rw [greedy_cons_of_not_takes htakes', ih]

/-- **Of two budgets one after the other the smaller one counts.** -/
theorem greedy_greedy (k k' : ℕ) (cls : List (List Candidate)) :
    greedy k [] (greedy k' [] cls) = greedy (min k k') [] cls := by
  rcases Nat.le_total k k' with hk | hk
  · rw [Nat.min_eq_left hk, greedy_greedy_of_le hk fun _ ↦ trails_nil]
  · rw [Nat.min_eq_right hk, greedy_greedy_of_ge hk]

theorem greedy_sublist_of_le (hk : k ≤ k') :
    (greedy k [] cls).Sublist (greedy k' [] cls) := by
  rw [← greedy_greedy_of_le hk fun _ ↦ trails_nil]
  exact greedy_sublist

/-! ### The files kept -/

/-- The greedy choice asks no more of a class than whether it is stable. -/
theorem greedy_map_reverse (k : ℕ) (newer cls : List (List Candidate)) :
    greedy k (newer.map List.reverse) (cls.map List.reverse) =
      (greedy k newer cls).map List.reverse := by
  induction cls generalizing newer with
  | nil => rfl
  | cons cl cls ih =>
    have hiff : Takes k (newer.map List.reverse) cl.reverse ↔ Takes k newer cl := by
      rw [Takes, Takes, List.length_map, isStableClass_reverse, unstableCount_map_reverse]
    have hconcat : newer.map List.reverse ++ [cl.reverse] = (newer ++ [cl]).map List.reverse := by
      rw [List.map_append, List.map_singleton]
    rw [List.map_cons]
    by_cases htakes : Takes k newer cl
    · rw [greedy_cons_of_takes htakes, greedy_cons_of_takes (hiff.2 htakes), hconcat, ih,
        List.map_cons]
    · rw [greedy_cons_of_not_takes htakes, greedy_cons_of_not_takes (mt hiff.1 htakes), ih]

theorem flatten_map_reverse_perm (cls : List (List Candidate)) :
    (cls.map List.reverse).flatten.Perm cls.flatten := by
  induction cls with
  | nil => exact .nil
  | cons cl cls ih => exact (List.reverse_perm cl).append ih

/-- What is kept of files whose versions are known and finite. -/
theorem truncate_fst_of_known (packageName : String) {budget : Budget} {artifacts : List Artifact}
    (hwhole : budget.keepRecent.toInt? = some (k : ℤ))
    (hknown : ∀ a ∈ artifacts, ∃ v ∈ Distribution.version? a.filename, v.IsFinite) :
    (truncate packageName budget artifacts).1 =
      (greedy k [] (classes (candidates artifacts))).flatten.map Candidate.artifact :=
  congrArg Prod.fst (truncate_of_known packageName hwhole hknown)

/-- Files of some of the classes of a package fall into these classes again. -/
theorem classes_candidates_map_artifact {artifacts : List Artifact}
    {taken : List (List Candidate)} (h : taken.Sublist (classes (candidates artifacts))) :
    classes (candidates (taken.flatten.map Candidate.artifact)) = taken.map List.reverse := by
  have hversion : ∀ c ∈ taken.flatten,
      Distribution.version? c.artifact.filename = some c.version := by
    intro c hc
    obtain ⟨cl, hcl, hc⟩ := List.mem_flatten.1 hc
    exact (version?_of_mem_candidates (mem_of_mem_classes (h.subset hcl) hc)).2
  rw [candidates_map_artifact hversion]
  exact ((grouping_classes _).sublist h).classes_flatten

/-- The files kept are among those offered. -/
theorem mem_of_mem_greedy {artifacts : List Artifact} {a : Artifact}
    (h : a ∈ (greedy k [] (classes (candidates artifacts))).flatten.map Candidate.artifact) :
    a ∈ artifacts := by
  obtain ⟨c, hc, rfl⟩ := List.mem_map.1 h
  obtain ⟨cl, hcl, hc⟩ := List.mem_flatten.1 hc
  exact (version?_of_mem_candidates (mem_of_mem_classes (greedy_sublist.subset hcl) hc)).1

/-- What is kept with two budgets one after the other. The classes left by the first are grouped
again as they were, except that the files of each come in reverse. -/
theorem truncate_truncate_fst (packageName : String) {budget earlier : Budget}
    {artifacts : List Artifact} (hwhole : budget.keepRecent.toInt? = some (k : ℤ))
    (hearlier : earlier.keepRecent.toInt? = some (k' : ℤ))
    (hknown : ∀ a ∈ artifacts, ∃ v ∈ Distribution.version? a.filename, v.IsFinite) :
    (truncate packageName budget (truncate packageName earlier artifacts).1).1 =
      ((greedy (min k k') [] (classes (candidates artifacts))).map List.reverse).flatten.map
        Candidate.artifact := by
  have hreverse : greedy k [] ((greedy k' [] (classes (candidates artifacts))).map List.reverse) =
      (greedy (min k k') [] (classes (candidates artifacts))).map List.reverse := by
    rw [← greedy_greedy]
    exact greedy_map_reverse k [] _
  rw [truncate_fst_of_known packageName hearlier hknown,
    truncate_fst_of_known packageName hwhole fun a ha ↦ hknown a (mem_of_mem_greedy ha),
    classes_candidates_map_artifact greedy_sublist, hreverse]

/-- Files that are kept with one budget and then with another are those that the smaller of the two
keeps, up to the order of the files of one version. -/
theorem truncate_truncate_fst_perm (packageName : String) {budget earlier least : Budget}
    {artifacts : List Artifact} (hwhole : budget.keepRecent.toInt? = some (k : ℤ))
    (hearlier : earlier.keepRecent.toInt? = some (k' : ℤ))
    (hleast : least.keepRecent.toInt? = some ((min k k' : ℕ) : ℤ))
    (hknown : ∀ a ∈ artifacts, ∃ v ∈ Distribution.version? a.filename, v.IsFinite) :
    (truncate packageName budget (truncate packageName earlier artifacts).1).1.Perm
      (truncate packageName least artifacts).1 := by
  rw [truncate_truncate_fst packageName hwhole hearlier hknown,
    truncate_fst_of_known packageName hleast hknown]
  exact (flatten_map_reverse_perm _).map Candidate.artifact

/-- A larger budget keeps whatever a smaller one keeps. -/
theorem truncate_fst_sublist (packageName : String) {budget larger : Budget}
    {artifacts : List Artifact} (hwhole : budget.keepRecent.toInt? = some (k : ℤ))
    (hlarger : larger.keepRecent.toInt? = some (k' : ℤ)) (hk : k ≤ k')
    (hknown : ∀ a ∈ artifacts, ∃ v ∈ Distribution.version? a.filename, v.IsFinite) :
    (truncate packageName budget artifacts).1.Sublist
      (truncate packageName larger artifacts).1 := by
  rw [truncate_fst_of_known packageName hwhole hknown,
    truncate_fst_of_known packageName hlarger hknown]
  exact (greedy_sublist_of_le hk).flatten.map Candidate.artifact

/-- **Budgets compose and are monotone.** Of two budgets one after the other the smaller one counts,
so a budget drops nothing of what it kept itself; and a larger budget keeps whatever a smaller one
keeps. -/
theorem truncate_composes (packageName : String) {budget other least : Budget}
    {artifacts : List Artifact} (hwhole : budget.keepRecent.toInt? = some (k : ℤ))
    (hother : other.keepRecent.toInt? = some (k' : ℤ))
    (hleast : least.keepRecent.toInt? = some ((min k k' : ℕ) : ℤ))
    (hknown : ∀ a ∈ artifacts, ∃ v ∈ Distribution.version? a.filename, v.IsFinite) :
    (truncate packageName budget (truncate packageName other artifacts).1).1.Perm
        (truncate packageName least artifacts).1 ∧
      (truncate packageName budget (truncate packageName budget artifacts).1).1.Perm
        (truncate packageName budget artifacts).1 ∧
      (k ≤ k' → (truncate packageName budget artifacts).1.Sublist
        (truncate packageName other artifacts).1) :=
  ⟨truncate_truncate_fst_perm packageName hwhole hother hleast hknown,
    truncate_truncate_fst_perm packageName hwhole hwhole ((Nat.min_self k).symm ▸ hwhole) hknown,
    fun hk ↦ truncate_fst_sublist packageName hwhole hother hk hknown⟩

def largerBudget : Budget := ⟨.ofNat 4⟩

theorem largerBudget_whole : largerBudget.keepRecent.toInt? = some ((4 : ℕ) : ℤ) := by
  decide +kernel

/-- The larger budget admits both pre-releases of the samples, the smaller one only the newer. -/
theorem truncate_composes_sampleFiles :
    sampleBudget.keepRecent.toInt? = some ((3 : ℕ) : ℤ) ∧
      largerBudget.keepRecent.toInt? = some ((4 : ℕ) : ℤ) ∧
      sampleBudget.keepRecent.toInt? = some ((min 3 4 : ℕ) : ℤ) ∧
      (∀ a ∈ sampleFiles, ∃ v ∈ Distribution.version? a.filename, v.IsFinite) ∧
      (truncate "qux" sampleBudget (truncate "qux" largerBudget sampleFiles).1).1.Perm
          (truncate "qux" sampleBudget sampleFiles).1 ∧
        (truncate "qux" sampleBudget (truncate "qux" sampleBudget sampleFiles).1).1.Perm
          (truncate "qux" sampleBudget sampleFiles).1 ∧
        (3 ≤ 4 → (truncate "qux" sampleBudget sampleFiles).1.Sublist
          (truncate "qux" largerBudget sampleFiles).1) :=
  ⟨sampleBudget_whole, largerBudget_whole, sampleBudget_whole, sampleFiles_known,
    truncate_composes "qux" sampleBudget_whole largerBudget_whole sampleBudget_whole
      sampleFiles_known⟩

end IndexSnapshot.Retention
