import IndexSnapshot.Proofs.Retention.Classes

/-!
# Sorting candidates

The order of versions is a total preorder: versions may be the same without being equal, and apart
from that they stand in one line, numbers past the range included. So sorting candidates by version
has one result only, provided that candidates of the same version keep their order
(`sortsStably_iff`), and candidates of the same version are next to each other in it
(`Contiguous`). The walk over the versions of a package rests on both.
-/

namespace IndexSnapshot.Retention

open Version

/-- A comparison of versions that puts them in one line, those that are the same in one place. -/
structure IsTotalPreorder (cmp : Version → Version → Ordering) : Prop where
  self : ∀ a, cmp a a = .eq
  swap : ∀ a b, cmp b a = (cmp a b).swap
  le_trans : ∀ a b c, (cmp a b).isLE = true → (cmp b c).isLE = true → (cmp a c).isLE = true
  lt_trans : ∀ a b c, cmp a b = .lt → cmp b c = .lt → cmp a c = .lt
  /-- The same versions compare alike with every version. -/
  congr : ∀ a b c, cmp a b = .eq → cmp a c = cmp b c

/-- The second list has the candidates of the first one from the oldest version to the newest, and
those of each version in the order given. -/
structure SortsStably (cs l : List Candidate) : Prop where
  perm : l.Perm cs
  sorted : l.Pairwise fun c d ↦ (order c.version d.version).isLE = true
  stable : ∀ v : Version,
    (l.filter fun c ↦ v.isSame c.version) = cs.filter fun c ↦ v.isSame c.version

/-- Between two candidates of the same version there are only candidates of that version. -/
def Contiguous (l : List Candidate) : Prop :=
  ∀ before c between d after, l = before ++ c :: (between ++ d :: after) →
    c.version.isSame d.version = true → ∀ e ∈ between, c.version.isSame e.version = true

variable {cs l : List Candidate}

theorem isTotalPreorder_order : IsTotalPreorder order where
  self _ := Std.ReflCmp.compare_self
  swap _ _ := Std.OrientedCmp.eq_swap
  le_trans := isLE_order_trans
  lt_trans _ _ _ := Std.TransCmp.lt_trans
  congr _ _ _ := Std.TransCmp.congr_left

theorem reverse_newestFirst (cs : List Candidate) :
    (newestFirst cs).reverse = sortOldestFirst Candidate.version cs :=
  List.reverse_reverse _

theorem sortsStably_sortOldestFirst (cs : List Candidate) :
    SortsStably cs (sortOldestFirst Candidate.version cs) where
  perm := sortOldestFirst_perm Candidate.version cs
  sorted := sortOldestFirst_pairwise Candidate.version cs
  stable v := by
    rw [← reverse_newestFirst, List.filter_reverse, filter_newestFirst, classOf,
      List.reverse_reverse]

/-- **There is one way to sort candidates stably.** -/
theorem SortsStably.eq_sortOldestFirst (h : SortsStably cs l) :
    l = sortOldestFirst Candidate.version cs := by
  have hnewest : NewestFirst l.reverse := List.pairwise_reverse.2 h.sorted
  have hreverse : l.reverse = newestFirst cs := by
    refine hnewest.ext (newestFirst_newestFirst cs) fun v ↦ ?_
    rw [List.filter_reverse, h.stable v, filter_newestFirst, classOf]
  rw [← reverse_newestFirst, ← hreverse, List.reverse_reverse]

theorem sortsStably_iff : SortsStably cs l ↔ l = sortOldestFirst Candidate.version cs :=
  ⟨SortsStably.eq_sortOldestFirst, fun h ↦ h ▸ sortsStably_sortOldestFirst cs⟩

/-- **Sorted candidates of the same version are next to each other.** -/
theorem contiguous_of_pairwise
    (h : l.Pairwise fun c d ↦ (order c.version d.version).isLE = true) : Contiguous l := by
  rintro before c between d after rfl hcd e he
  have htail := (List.pairwise_append.1 h).2.1
  obtain ⟨hc, hrest⟩ := List.pairwise_cons.1 htail
  have hce : (order c.version e.version).isLE = true := hc e (List.mem_append_left _ he)
  have hed : (order e.version d.version).isLE = true :=
    (List.pairwise_append.1 hrest).2.2 e he d List.mem_cons_self
  have hec : (order e.version c.version).isLE = true := by
    rwa [Std.TransCmp.congr_right (isSame_iff.1 hcd)]
  exact isSame_iff.2 (Std.OrientedCmp.isLE_antisymm hce hec)

/-- **Versions are totally preordered, so sorting by version is well defined**: it has one result,
in which the same versions are next to each other. -/
theorem isTotalPreorder_and_sorts : IsTotalPreorder order ∧ ∀ cs l : List Candidate,
    (SortsStably cs l ↔ l = sortOldestFirst Candidate.version cs) ∧
      (SortsStably cs l → Contiguous l) :=
  ⟨isTotalPreorder_order, fun _ _ ↦ ⟨sortsStably_iff, fun h ↦ contiguous_of_pairwise h.sorted⟩⟩

end IndexSnapshot.Retention
