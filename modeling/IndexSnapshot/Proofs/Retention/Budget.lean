import IndexSnapshot.Proofs.Retention.Greedy

/-!
# What a budget guarantees

Of the classes of a package at most `k` are kept, and at most half of `k`, rounded down, that are
not stable. So pre-releases leave room for stable versions, however many of them are newer: the
newest stable classes up to half of `k`, rounded up, are kept with all of their files. Stable
classes are passed over only once `k` classes are kept.

All of this is about the greedy choice of classes. While it is made, the stable classes that are
still promised and the classes that are taken fit into the budget together, the unstable ones taken
counting as half of it at most.
-/

namespace IndexSnapshot.Retention

variable {k n : ℕ} {newer cls : List (List Candidate)} {cl : List Candidate}

/-! ### Bounds of the greedy choice -/

theorem unstableCount_cons_of_stable (h : isStableClass cl = true) :
    unstableCount (cl :: cls) = unstableCount cls := by
  simp [unstableCount, h]

theorem unstableCount_cons_of_unstable (h : isStableClass cl = false) :
    unstableCount (cl :: cls) = unstableCount cls + 1 := by
  simp [unstableCount, h]

theorem greedy_sublist : (greedy k newer cls).Sublist cls := by
  induction cls generalizing newer with
  | nil => exact .slnil
  | cons cl cls ih =>
    rw [greedy]
    split
    · exact ih.cons_cons cl
    · exact ih.cons cl

/-- At most `k` classes are taken. -/
theorem length_greedy_le (h : newer.length ≤ k) :
    newer.length + (greedy k newer cls).length ≤ k := by
  induction cls generalizing newer with
  | nil => exact h
  | cons cl cls ih =>
    rw [greedy]
    split
    · rename_i htaken
      have hlength : (newer ++ [cl]).length = newer.length + 1 := List.length_append
      have hrest := ih (hlength.trans_le htaken.1)
      rw [List.length_cons]
      omega
    · exact ih h

/-- At most half of `k` classes are taken that are not stable. -/
theorem unstableCount_greedy_le (h : unstableCount newer ≤ k / 2) :
    unstableCount newer + unstableCount (greedy k newer cls) ≤ k / 2 := by
  induction cls generalizing newer with
  | nil => exact h
  | cons cl cls ih =>
    rw [greedy]
    split
    · rename_i htaken
      cases hstable : isStableClass cl with
      | true =>
        have hcount : unstableCount (newer ++ [cl]) = unstableCount newer :=
          unstableCount_concat_of_stable hstable
        rw [unstableCount_cons_of_stable hstable, ← hcount]
        exact ih (hcount.trans_le h)
      | false =>
        have hcount : unstableCount (newer ++ [cl]) = unstableCount newer + 1 :=
          unstableCount_concat_of_unstable hstable
        have hroom : unstableCount newer < k / 2 := by simpa [hstable] using htaken.2
        have hrest := ih (hcount.trans_le hroom)
        rw [unstableCount_cons_of_unstable hstable]
        omega
    · exact ih h

/-- **The newest stable classes are taken**, as many as are left of half of `k` after the stable
ones taken already. -/
theorem mem_greedy_of_mem_take (hunstable : unstableCount newer ≤ k / 2)
    (hpromised : n + newer.length ≤ (k + 1) / 2 + unstableCount newer)
    (hcl : cl ∈ (cls.filter isStableClass).take n) : cl ∈ greedy k newer cls := by
  induction cls generalizing newer n with
  | nil => simp at hcl
  | cons first older ih =>
    have hlength : (newer ++ [first]).length = newer.length + 1 := List.length_append
    cases hstable : isStableClass first with
    | true =>
      have hcount : unstableCount (newer ++ [first]) = unstableCount newer :=
        unstableCount_concat_of_stable hstable
      cases n with
      | zero => simp at hcl
      | succ n =>
        rw [List.filter_cons_of_pos hstable, List.take_succ_cons, List.mem_cons] at hcl
        rw [greedy, if_pos ⟨by omega, .inl hstable⟩, List.mem_cons]
        refine hcl.imp_right fun hcl ↦ ?_
        exact ih (hcount.trans_le hunstable) (by omega) hcl
    | false =>
      have hcount : unstableCount (newer ++ [first]) = unstableCount newer + 1 :=
        unstableCount_concat_of_unstable hstable
      rw [List.filter_cons_of_neg (by simp [hstable])] at hcl
      rw [greedy]
      -- an unstable class that is taken adds to both sides of what is promised
      split
      · rename_i htaken
        have hroom : unstableCount newer < k / 2 := by simpa [hstable] using htaken.2
        exact List.mem_cons_of_mem first (ih (hcount.trans_le hroom) (by omega) hcl)
      · exact ih hunstable hpromised hcl

/-- A stable class is passed over only when the budget is spent. -/
theorem mem_greedy_of_length_lt (hleft : newer.length + (greedy k newer cls).length < k)
    (hcl : cl ∈ cls) (hstable : isStableClass cl = true) : cl ∈ greedy k newer cls := by
  induction cls generalizing newer with
  | nil => exact absurd hcl List.not_mem_nil
  | cons first older ih =>
    rw [greedy] at hleft ⊢
    split at hleft
    · rename_i htaken
      have hlength : (newer ++ [first]).length = newer.length + 1 := List.length_append
      rw [List.length_cons] at hleft
      rw [if_pos htaken, List.mem_cons]
      exact (List.mem_cons.1 hcl).imp_right fun hcl ↦ ih (by omega) hcl
    · rename_i hpassed
      rw [if_neg hpassed]
      rcases List.mem_cons.1 hcl with rfl | hcl
      · exact absurd ⟨by omega, .inl hstable⟩ hpassed
      · exact ih hleft hcl

/-! ### The files kept -/

theorem isStableClass_reverse (cl : List Candidate) :
    isStableClass cl.reverse = isStableClass cl := List.all_reverse

theorem unstableCount_map_reverse (cls : List (List Candidate)) :
    unstableCount (cls.map List.reverse) = unstableCount cls := by
  rw [unstableCount, unstableCount, List.countP_map]
  exact List.countP_congr fun cl _ ↦ by rw [Function.comp_apply, isStableClass_reverse]

/-- The stable classes of candidates, from the newest to the oldest. -/
def stableClasses (cs : List Candidate) : List (List Candidate) := (classes cs).filter isStableClass

/-- Of the candidates offered, those kept respect a budget of `k` versions and do not starve the
stable ones: the members of a stable class are kept side by side and in their order. -/
structure Balanced (k : ℕ) (offered kept : List Candidate) : Prop where
  length_le : (classes kept).length ≤ k
  unstableCount_le : unstableCount (classes kept) ≤ k / 2
  newest_stable : ∀ cl ∈ (stableClasses offered).take ((k + 1) / 2), cl <:+: kept
  head_stable : ∀ cl ∈ (stableClasses offered).head?, cl <:+: kept
  all_stable : (classes kept).length < k → ∀ cl ∈ stableClasses offered, cl <:+: kept

/-- What the greedy choice takes of the classes of a package is balanced. -/
theorem balanced_greedy (hk : 1 ≤ k) (cs : List Candidate) :
    Balanced k cs (greedy k [] (classes cs)).flatten := by
  set taken := greedy k [] (classes cs) with htaken
  have hspanned : classes taken.flatten = taken.map List.reverse :=
    ((grouping_classes cs).sublist greedy_sublist).classes_flatten
  have hlength : ([] : List (List Candidate)).length + taken.length ≤ k :=
    length_greedy_le (Nat.zero_le k)
  have hunstable : unstableCount [] + unstableCount taken ≤ k / 2 :=
    unstableCount_greedy_le (Nat.zero_le (k / 2))
  have hfull : ∀ cl ∈ taken, cl <:+: taken.flatten := fun cl hcl ↦ List.infix_of_mem_flatten hcl
  have hnewest : ∀ cl ∈ (stableClasses cs).take ((k + 1) / 2), cl ∈ taken :=
    fun cl hcl ↦ mem_greedy_of_mem_take (Nat.zero_le _) le_rfl hcl
  refine ⟨?_, ?_, fun cl hcl ↦ hfull cl (hnewest cl hcl), fun cl hcl ↦ ?_, fun hlt cl hcl ↦ ?_⟩
  · rw [hspanned, List.length_map]
    exact (Nat.zero_add _).ge.trans hlength
  · rw [hspanned, unstableCount_map_reverse]
    exact (Nat.zero_add _).ge.trans hunstable
  · obtain ⟨older, hstable⟩ := List.head?_eq_some_iff.1 hcl
    obtain ⟨m, hm⟩ : ∃ m, (k + 1) / 2 = m + 1 := ⟨(k + 1) / 2 - 1, by omega⟩
    refine hfull cl (hnewest cl ?_)
    rw [hstable, hm, List.take_succ_cons]
    exact List.mem_cons_self
  · rw [hspanned, List.length_map] at hlt
    obtain ⟨hmem, hstable⟩ := List.mem_filter.1 hcl
    exact hfull cl (mem_greedy_of_length_lt ((Nat.zero_add _).trans_lt hlt) hmem hstable)

/-- **A budget bounds what is kept and starves no stable version**, the files that are given and
those that are kept being taken with the versions that their names tell. -/
theorem truncate_balanced (packageName : String) {budget : Budget} {artifacts : List Artifact}
    (hwhole : budget.keepRecent.toInt? = some (k : ℤ)) (hk : 1 ≤ k)
    (hknown : ∀ a ∈ artifacts, ∃ v ∈ Distribution.version? a.filename, v.IsFinite) :
    ∃ offered kept, AreCandidates artifacts offered ∧
      AreCandidates (truncate packageName budget artifacts).1 kept ∧ Balanced k offered kept := by
  refine ⟨candidates artifacts, (greedy k [] (classes (candidates artifacts))).flatten,
    areCandidates_candidates hknown, ⟨?_, fun c hc ↦ ?_⟩, balanced_greedy hk _⟩
  · rw [truncate_of_known packageName hwhole hknown]
  · obtain ⟨cl, hcl, hc⟩ := List.mem_flatten.1 hc
    exact (version?_of_mem_candidates (mem_of_mem_classes (greedy_sublist.subset hcl) hc)).2

/-- Two pre-releases are newer than the stable samples, of which the two newest are kept. -/
theorem truncate_sampleFiles_balanced :
    sampleBudget.keepRecent.toInt? = some ((3 : ℕ) : ℤ) ∧ 1 ≤ 3 ∧
      (∀ a ∈ sampleFiles, ∃ v ∈ Distribution.version? a.filename, v.IsFinite) ∧
      (truncate "qux" sampleBudget sampleFiles).1 = keptFiles ∧
      ∃ offered kept, AreCandidates sampleFiles offered ∧ AreCandidates keptFiles kept ∧
        Balanced 3 offered kept := by
  have hbalanced := truncate_balanced "qux" sampleBudget_whole (by decide) sampleFiles_known
  rw [truncate_eq_keptFiles] at hbalanced
  exact ⟨sampleBudget_whole, by decide, sampleFiles_known, by rw [truncate_eq_keptFiles],
    hbalanced⟩

end IndexSnapshot.Retention
