import IndexSnapshot.Proofs.Version.Numbers
import IndexSnapshot.Retention
import Mathlib.Data.List.Pairwise

/-!
# Classes of candidates

The files of a package fall into classes of the same version. `classes` groups them by definition:
one version is chosen for each class, the versions are sorted from the newest to the oldest, and
each stands for all candidates of the same version, in the reverse of the order given.

`newestFirst` sorts the candidates one by one and knows no classes. That the two agree
(`flatten_classes`) rests on two facts: the sort is stable, so the candidates of one version come
out in the reverse of the order given (`filter_newestFirst`), and a list that is sorted from the
newest to the oldest is the concatenation of its parts of the same version
(`flatten_filter_isSame`).

`Grouping` says what makes a list of lists a list of classes. It determines the classes
(`Grouping.unique`), so classes that are put together and grouped again come out as they were, up
to the order within each (`Grouping.classes_flatten`).
-/

namespace IndexSnapshot.Retention

open Version

/-! ### Grouping by version -/

/-- One version for each class of same versions, from the newest to the oldest. -/
def distinctNewestFirst (cs : List Candidate) : List Version :=
  ((cs.map Candidate.version).pwFilter fun v w ↦ v.isSame w = false).mergeSort
    fun v w ↦ (order w v).isLE

/-- The candidates of a version, in the reverse of the order given. -/
def classOf (cs : List Candidate) (v : Version) : List Candidate :=
  (cs.filter fun c ↦ v.isSame c.version).reverse

/-- The candidates grouped by version, from the newest version to the oldest. -/
def classes (cs : List Candidate) : List (List Candidate) :=
  (distinctNewestFirst cs).map (classOf cs)

/-- All versions of the class are stable. -/
def isStableClass (cl : List Candidate) : Bool := cl.all fun c ↦ c.version.isStable

/-- Candidates from the newest version to the oldest. -/
def NewestFirst (cs : List Candidate) : Prop :=
  cs.Pairwise fun c d ↦ (order d.version c.version).isLE = true

/-! ### Sorting -/

theorem newestFirst_newestFirst (cs : List Candidate) : NewestFirst (newestFirst cs) :=
  List.pairwise_reverse.2 (sortOldestFirst_pairwise Candidate.version cs)

theorem newestFirst_perm (cs : List Candidate) : (newestFirst cs).Perm cs :=
  (List.reverse_perm _).trans (sortOldestFirst_perm Candidate.version cs)

/-- The candidates of a version come out of the sort in the reverse of the order given. -/
theorem filter_newestFirst (cs : List Candidate) (v : Version) :
    (newestFirst cs).filter (fun c ↦ v.isSame c.version) = classOf cs v := by
  have hsame : (cs.filter fun c ↦ v.isSame c.version).Pairwise
      fun c d ↦ (order c.version d.version).isLE = true := by
    refine List.pairwise_of_forall_mem_list fun c hc d hd ↦ ?_
    have hcd := isSame_trans (isSame_symm (List.mem_filter.1 hc).2) (List.mem_filter.1 hd).2
    rw [isSame_iff.1 hcd]
    rfl
  -- the candidates of one version are sorted as they stand, so a stable sort keeps their order
  have hsub := (sublist_sortOldestFirst Candidate.version hsame List.filter_sublist).filter
    fun c ↦ v.isSame c.version
  have hlen := ((sortOldestFirst_perm Candidate.version cs).filter
    fun c ↦ v.isSame c.version).length_eq
  rw [List.filter_filter] at hsub
  simp only [Bool.and_self] at hsub
  rw [newestFirst, List.filter_reverse, classOf, hsub.eq_of_length hlen.symm]

/-! ### The versions of the classes -/

theorem distinctNewestFirst_perm (cs : List Candidate) :
    (distinctNewestFirst cs).Perm
      ((cs.map Candidate.version).pwFilter fun v w ↦ v.isSame w = false) :=
  List.mergeSort_perm _ _

/-- The versions of the classes are strictly descending. -/
theorem distinctNewestFirst_pairwise (cs : List Candidate) :
    (distinctNewestFirst cs).Pairwise fun v w ↦ order w v = .lt := by
  have hsorted : (distinctNewestFirst cs).Pairwise fun v w ↦ (order w v).isLE = true :=
    List.pairwise_mergeSort (fun u v w huv hvw ↦ isLE_order_trans w v u hvw huv)
      (fun v w ↦ isLE_order_total w v) _
  have hdistinct : (distinctNewestFirst cs).Pairwise fun v w ↦ v.isSame w = false :=
    (distinctNewestFirst_perm cs).symm.pairwise (List.pairwise_pwFilter _)
      fun {v w} h ↦ by rwa [isSame_comm]
  refine (hsorted.and hdistinct).imp fun {v w} h ↦ ?_
  have hne : order w v ≠ .eq := by
    intro heq
    rw [isSame_comm, isSame_iff.2 heq] at h
    exact absurd h.2 (by decide)
  cases hwv : order w v with
  | lt => rfl
  | eq => exact absurd hwv hne
  | gt => exact absurd h.1 (by rw [hwv]; decide)

theorem mem_of_mem_distinctNewestFirst {cs : List Candidate} {v : Version}
    (h : v ∈ distinctNewestFirst cs) : ∃ c ∈ cs, c.version = v :=
  List.mem_map.1 (List.pwFilter_subset _ ((distinctNewestFirst_perm cs).mem_iff.1 h))

/-- Every candidate belongs to a class. -/
theorem exists_isSame_of_mem {cs : List Candidate} {c : Candidate} (hc : c ∈ cs) :
    ∃ v ∈ distinctNewestFirst cs, v.isSame c.version = true := by
  by_contra hnone
  have hneg : ∀ {u v w : Version},
      u.isSame w = false → u.isSame v = false ∨ v.isSame w = false := by
    intro u v w huw
    by_contra h
    simp only [not_or, Bool.not_eq_false] at h
    exact absurd (isSame_trans h.1 h.2) (by simp [huw])
  -- a version unlike all that `pwFilter` keeps is unlike all versions there are, itself included
  have hall : ∀ v ∈ cs.map Candidate.version, c.version.isSame v = false := by
    refine (List.forall_mem_pwFilter (R := fun v w ↦ v.isSame w = false) hneg c.version
      (cs.map Candidate.version)).1 fun v hv ↦ ?_
    have hmem := (distinctNewestFirst_perm cs).mem_iff.2 hv
    exact Bool.eq_false_iff.2 fun h ↦ hnone ⟨v, hmem, isSame_symm h⟩
  have hself := hall c.version (List.mem_map_of_mem hc)
  rw [isSame_refl] at hself
  cases hself

/-! ### A sorted list is the concatenation of its classes -/

/-- What satisfies a condition that passes to earlier items stands before the rest. -/
theorem filter_append_filter_not {α : Type} {p : α → Bool} {l : List α}
    (h : l.Pairwise fun a b ↦ p b = true → p a = true) :
    l.filter p ++ l.filter (fun a ↦ !p a) = l := by
  induction l with
  | nil => rfl
  | cons a l ih =>
    rw [List.pairwise_cons] at h
    cases hp : p a with
    | true =>
      rw [List.filter_cons_of_pos hp, List.filter_cons_of_neg (by simp [hp]), List.cons_append,
        ih h.2]
    | false =>
      have hnone : ∀ b ∈ l, ¬ p b = true := by
        intro b hb hpb
        rw [h.1 b hb hpb] at hp
        cases hp
      have hall : ∀ b ∈ l, (!p b) = true := by
        intro b hb
        simpa using hnone b hb
      rw [List.filter_cons_of_neg (by simp [hp]), List.filter_cons_of_pos (by simp [hp]),
        List.filter_eq_nil_iff.2 hnone, List.filter_eq_self.2 hall, List.nil_append]

/-- **A list from the newest version to the oldest is the concatenation of its classes.** -/
theorem flatten_filter_isSame {vs : List Version} {l : List Candidate}
    (hvs : vs.Pairwise fun v w ↦ order w v = .lt) (hl : NewestFirst l)
    (hcover : ∀ c ∈ l, ∃ v ∈ vs, v.isSame c.version = true) :
    (vs.map fun v ↦ l.filter fun c ↦ v.isSame c.version).flatten = l := by
  induction vs generalizing l with
  | nil =>
    cases l with
    | nil => rfl
    | cons c l =>
      obtain ⟨v, hv, -⟩ := hcover c List.mem_cons_self
      exact absurd hv List.not_mem_nil
  | cons v vs ih =>
    rw [List.pairwise_cons] at hvs
    -- nothing is newer than `v`, so what is not older than a candidate of `v` is of `v` itself
    have hfirst : l.Pairwise fun c d ↦ v.isSame d.version = true → v.isSame c.version = true := by
      refine hl.imp_of_mem fun {c d} hc _ hdc hd ↦ ?_
      obtain ⟨u, hu, huc⟩ := hcover c hc
      have hle : (order c.version v).isLE = true := by
        rw [← Std.TransCmp.congr_left (isSame_iff.1 huc)]
        rcases List.mem_cons.1 hu with rfl | hu
        · have hself : order u u = .eq := Std.ReflCmp.compare_self
          rw [hself]
          rfl
        · rw [hvs.1 u hu]
          rfl
      have hge : (order v c.version).isLE = true := by
        rwa [Std.TransCmp.congr_left (isSame_iff.1 hd)]
      exact isSame_iff.2 (Std.OrientedCmp.isLE_antisymm hge hle)
    have hrest : ∀ c ∈ l.filter (fun c ↦ !v.isSame c.version),
        ∃ w ∈ vs, w.isSame c.version = true := by
      intro c hc
      obtain ⟨hc, hv⟩ := List.mem_filter.1 hc
      obtain ⟨u, hu, huc⟩ := hcover c hc
      rcases List.mem_cons.1 hu with rfl | hu
      · simp [huc] at hv
      · exact ⟨u, hu, huc⟩
    have hsame : ∀ w ∈ vs, (l.filter fun c ↦ w.isSame c.version) =
        (l.filter fun c ↦ !v.isSame c.version).filter fun c ↦ w.isSame c.version := by
      intro w hw
      rw [List.filter_filter]
      refine List.filter_congr fun c _ ↦ ?_
      cases hwc : w.isSame c.version with
      | false => rfl
      | true =>
        have hwv : w.isSame v = false := isSame_eq_false_of_lt (hvs.1 w hw)
        have hvc : v.isSame c.version = false := by
          rw [isSame_comm, ← isSame_congr_left hwc, hwv]
        rw [hvc]
        rfl
    rw [List.map_cons, List.flatten_cons, List.map_congr_left hsame,
      ih hvs.2 (hl.sublist List.filter_sublist) hrest]
    exact filter_append_filter_not hfirst

/-- **The classes put together are the candidates sorted one by one.** -/
theorem flatten_classes (cs : List Candidate) : (classes cs).flatten = newestFirst cs := by
  have hclasses : classes cs = (distinctNewestFirst cs).map fun v ↦
      (newestFirst cs).filter fun c ↦ v.isSame c.version :=
    List.map_congr_left fun v _ ↦ (filter_newestFirst cs v).symm
  rw [hclasses]
  exact flatten_filter_isSame (distinctNewestFirst_pairwise cs) (newestFirst_newestFirst cs)
    fun c hc ↦ exists_isSame_of_mem ((newestFirst_perm cs).mem_iff.1 hc)

/-! ### Lists of classes -/

/-- What makes a list of lists a list of classes: none is empty, all members of one have the same
version, and the versions strictly descend from class to class. -/
structure Grouping (cls : List (List Candidate)) : Prop where
  ne_nil : ∀ cl ∈ cls, cl ≠ []
  same : ∀ cl ∈ cls, ∀ c ∈ cl, ∀ d ∈ cl, c.version.isSame d.version = true
  descending : cls.Pairwise fun cl cl' ↦ ∀ c ∈ cl, ∀ d ∈ cl', order d.version c.version = .lt

theorem mem_classOf {cs : List Candidate} {v : Version} {c : Candidate} :
    c ∈ classOf cs v ↔ c ∈ cs ∧ v.isSame c.version = true := by
  rw [classOf, List.mem_reverse, List.mem_filter]

/-- **The classes of candidates are a grouping.** -/
theorem grouping_classes (cs : List Candidate) : Grouping (classes cs) where
  ne_nil cl hcl := by
    obtain ⟨v, hv, rfl⟩ := List.mem_map.1 hcl
    obtain ⟨c, hc, rfl⟩ := mem_of_mem_distinctNewestFirst hv
    exact List.ne_nil_of_mem (mem_classOf.2 ⟨hc, isSame_refl c.version⟩)
  same cl hcl c hc d hd := by
    obtain ⟨v, -, rfl⟩ := List.mem_map.1 hcl
    exact isSame_trans (isSame_symm (mem_classOf.1 hc).2) (mem_classOf.1 hd).2
  descending := by
    refine List.pairwise_map.2 ((distinctNewestFirst_pairwise cs).imp fun {v w} hwv c hc d hd ↦ ?_)
    rw [← Std.TransCmp.congr_left (isSame_iff.1 (mem_classOf.1 hd).2),
      ← Std.TransCmp.congr_right (isSame_iff.1 (mem_classOf.1 hc).2), hwv]

namespace Grouping

variable {cls cls' : List (List Candidate)}

theorem sublist (h : Grouping cls) (hsub : cls'.Sublist cls) : Grouping cls' where
  ne_nil cl hcl := h.ne_nil cl (hsub.subset hcl)
  same cl hcl := h.same cl (hsub.subset hcl)
  descending := h.descending.sublist hsub

theorem of_cons {cl : List Candidate} (h : Grouping (cl :: cls)) : Grouping cls :=
  h.sublist (List.sublist_cons_self cl cls)

theorem lt_of_mem {cl : List Candidate} (h : Grouping (cl :: cls)) {c d : Candidate} (hc : c ∈ cl)
    (hd : d ∈ cls.flatten) : order d.version c.version = .lt := by
  obtain ⟨cl', hcl', hd⟩ := List.mem_flatten.1 hd
  exact (List.pairwise_cons.1 h.descending).1 cl' hcl' c hc d hd

/-- The members of a class may be given in another order. -/
theorem map_reverse (h : Grouping cls) : Grouping (cls.map List.reverse) where
  ne_nil cl hcl := by
    obtain ⟨cl', hcl', rfl⟩ := List.mem_map.1 hcl
    exact fun hnil ↦ h.ne_nil cl' hcl' (List.reverse_eq_nil_iff.1 hnil)
  same cl hcl c hc d hd := by
    obtain ⟨cl', hcl', rfl⟩ := List.mem_map.1 hcl
    exact h.same cl' hcl' c (List.mem_reverse.1 hc) d (List.mem_reverse.1 hd)
  descending := by
    refine List.pairwise_map.2 (h.descending.imp fun {cl cl'} hlt c hc d hd ↦ ?_)
    exact hlt c (List.mem_reverse.1 hc) d (List.mem_reverse.1 hd)

theorem newestFirst_flatten (h : Grouping cls) : NewestFirst cls.flatten := by
  refine List.pairwise_flatten.2 ⟨fun cl hcl ↦ ?_, ?_⟩
  · refine List.pairwise_of_forall_mem_list fun c hc d hd ↦ ?_
    rw [isSame_iff.1 (h.same cl hcl d hd c hc)]
    rfl
  · refine h.descending.imp fun {cl cl'} hlt c hc d hd ↦ ?_
    rw [hlt c hc d hd]
    rfl

/-- The first class ends where the next version begins. -/
theorem eq_of_append_eq {cl x : List Candidate} {rest : List Candidate}
    (h : Grouping (cl :: cls)) (h' : Grouping ((cl ++ x) :: cls'))
    (hflatten : cls.flatten = x ++ rest) : x = [] := by
  cases x with
  | nil => rfl
  | cons d x =>
    obtain ⟨c, hc⟩ := List.exists_mem_of_ne_nil cl (h.ne_nil cl List.mem_cons_self)
    have hlt : order d.version c.version = .lt := h.lt_of_mem hc (by simp [hflatten])
    have hsame := h'.same _ List.mem_cons_self d (by simp) c (List.mem_append_left _ hc)
    rw [isSame_eq_false_of_lt hlt] at hsame
    cases hsame

/-- **A grouping is determined by its members in order.** -/
theorem unique (h : Grouping cls) (h' : Grouping cls') (heq : cls.flatten = cls'.flatten) :
    cls = cls' := by
  induction cls generalizing cls' with
  | nil =>
    cases cls' with
    | nil => rfl
    | cons cl' cls' =>
      have hnil := (List.append_eq_nil_iff.1 (List.flatten_cons ▸ heq.symm)).1
      exact absurd hnil (h'.ne_nil cl' List.mem_cons_self)
  | cons cl cls ih =>
    cases cls' with
    | nil =>
      have hnil := (List.append_eq_nil_iff.1 (List.flatten_cons ▸ heq)).1
      exact absurd hnil (h.ne_nil cl List.mem_cons_self)
    | cons cl' cls' =>
      rw [List.flatten_cons, List.flatten_cons] at heq
      -- one of the two first classes begins with the other, and then has no more members
      rcases List.append_eq_append_iff.1 heq with ⟨x, rfl, hx⟩ | ⟨x, rfl, hx⟩
      · obtain rfl := eq_of_append_eq h h' hx
        rw [List.append_nil, ih h.of_cons h'.of_cons hx]
      · obtain rfl := eq_of_append_eq h' h hx
        rw [List.append_nil, ih h.of_cons h'.of_cons hx.symm]

/-- At most one class of a grouping has a given version. -/
theorem filter_flatten_map_reverse (h : Grouping cls) (v : Version) :
    (cls.map List.reverse).flatten.filter (fun c ↦ v.isSame c.version) = classOf cls.flatten v := by
  induction cls with
  | nil => rfl
  | cons cl cls ih =>
    have hrest := ih h.of_cons
    rw [List.map_cons, List.flatten_cons, List.filter_append, hrest, List.flatten_cons, classOf,
      classOf, List.filter_append, List.reverse_append, List.filter_reverse]
    by_cases hcl : ∃ c ∈ cl, v.isSame c.version = true
    · -- all older classes are of other versions
      obtain ⟨c, hc, hvc⟩ := hcl
      have hnil : cls.flatten.filter (fun d ↦ v.isSame d.version) = [] := by
        refine List.filter_eq_nil_iff.2 fun d hd hvd ↦ ?_
        have hlt := isSame_eq_false_of_lt (h.lt_of_mem hc hd)
        rw [isSame_trans (isSame_symm hvd) hvc] at hlt
        cases hlt
      rw [hnil, List.reverse_nil, List.append_nil, List.nil_append]
    · have hnil : cl.filter (fun d ↦ v.isSame d.version) = [] :=
        List.filter_eq_nil_iff.2 fun d hd hvd ↦ hcl ⟨d, hd, hvd⟩
      rw [hnil, List.reverse_nil, List.append_nil, List.nil_append]

end Grouping

/-- Candidates from the newest version to the oldest are determined by those of each version. -/
theorem NewestFirst.ext {l l' : List Candidate} (hl : NewestFirst l) (hl' : NewestFirst l')
    (h : ∀ v : Version, (l.filter fun c ↦ v.isSame c.version) =
      l'.filter fun c ↦ v.isSame c.version) : l = l' := by
  have hmem : ∀ c ∈ l', c ∈ l := by
    intro c hc
    have hfilter : c ∈ l'.filter fun d ↦ c.version.isSame d.version :=
      List.mem_filter.2 ⟨hc, isSame_refl c.version⟩
    rw [← h c.version] at hfilter
    exact (List.mem_filter.1 hfilter).1
  -- both lists are the concatenation over the versions of the first one
  have hvs := distinctNewestFirst_pairwise l
  calc l = ((distinctNewestFirst l).map fun v ↦ l.filter fun c ↦ v.isSame c.version).flatten :=
        (flatten_filter_isSame hvs hl fun _ hc ↦ exists_isSame_of_mem hc).symm
    _ = ((distinctNewestFirst l).map fun v ↦ l'.filter fun c ↦ v.isSame c.version).flatten := by
        rw [List.map_congr_left fun v _ ↦ h v]
    _ = l' := flatten_filter_isSame hvs hl' fun c hc ↦ exists_isSame_of_mem (hmem c hc)

/-- **Classes that are put together come out of grouping as they were**, with the members of each
in reverse. -/
theorem Grouping.classes_flatten {cls : List (List Candidate)} (h : Grouping cls) :
    classes cls.flatten = cls.map List.reverse := by
  refine (grouping_classes _).unique h.map_reverse ?_
  rw [flatten_classes]
  refine (newestFirst_newestFirst _).ext h.map_reverse.newestFirst_flatten fun v ↦ ?_
  rw [filter_newestFirst, h.filter_flatten_map_reverse]

end IndexSnapshot.Retention
