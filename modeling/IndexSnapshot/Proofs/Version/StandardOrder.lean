import IndexSnapshot.Proofs.Version.Numbers
import Mathlib.Data.ENat.Basic
import Mathlib.Data.List.DropRight
import Mathlib.Data.List.Lex
import Mathlib.Data.Prod.Lex
import Mathlib.Data.String.Basic
import Mathlib.Data.Sum.Order
import Mathlib.Order.Compare
import Mathlib.Order.Fin.Basic
import Mathlib.Order.WithBot

/-!
# The order of PEP 440

PEP 440 orders versions by a key of six parts. Here the key is built from the fields of a version
with the orders of Mathlib, so that the place of an absent part is a matter of its type: `WithBot`
puts it below everything, `WithTop` above everything, `⊕ₗ` puts texts below numbers, and lists are
compared item by item with a proper prefix first. `Version.order` encodes the same places in other
ways: one zero always stays of a release, and the outer places of a pre-release are lists of another
length.

The comparison of each part is related to the order of its counterpart by `Ordering.Compares`, and
such relations pass to lists and to lexicographic pairs. One part needs a hypothesis: an infinite
development number is compared as if it were absent.
-/

namespace IndexSnapshot

/-! ### The key -/

/-- The place of a phase: alpha before beta before candidate. -/
def Phase.position : Phase → Fin 3
  | .alpha => 0
  | .beta => 1
  | .candidate => 2

/-- The value of a magnitude. -/
def Magnitude.toENat : Magnitude → ℕ∞
  | .finite n => n
  | .infinite => ⊤

/-- A segment of a local label: every text below every number. -/
def LocalPart.standardKey : LocalPart → String ⊕ₗ ℕ∞
  | .text s => Sum.inlₗ s
  | .number n => Sum.inrₗ n.toENat

namespace Version

/-- The release without any zeros at its end. -/
def standardRelease (v : Version) : List ℕ∞ :=
  (v.release.rdropWhile fun n ↦ n = .finite 0).map Magnitude.toENat

/-- The pre-release: below everything for a mere development release, above everything for a
version that is no pre-release otherwise. -/
def standardPre (v : Version) : WithBot (WithTop (Fin 3 ×ₗ ℕ∞)) :=
  match v.pre with
  | some p => ((toLex (p.phase.position, p.number.toENat) : Fin 3 ×ₗ ℕ∞) : WithTop (Fin 3 ×ₗ ℕ∞))
  | none => if v.dev.isSome ∧ v.post = none then ⊥ else (⊤ : WithTop (Fin 3 ×ₗ ℕ∞))

/-- The post-release number; none is below every number. -/
def standardPost (v : Version) : WithBot ℕ∞ := v.post.elim ⊥ fun n ↦ n.toENat

/-- The development number; none is above every number. -/
def standardDev (v : Version) : WithTop ℕ∞ := v.dev.elim ⊤ fun n ↦ n.toENat

/-- The local label; none is below every label. -/
def standardLocal (v : Version) : WithBot (List (String ⊕ₗ ℕ∞)) :=
  v.localParts.elim ⊥ fun ps ↦ (ps.map LocalPart.standardKey : List (String ⊕ₗ ℕ∞))

/-- The key that versions are ordered by: epoch, release, pre-release, post-release, development
number, local label. -/
def standardKey (v : Version) : ℕ∞ ×ₗ List ℕ∞ ×ₗ WithBot (WithTop (Fin 3 ×ₗ ℕ∞)) ×ₗ
    WithBot ℕ∞ ×ₗ WithTop ℕ∞ ×ₗ WithBot (List (String ⊕ₗ ℕ∞)) :=
  toLex (v.epoch.toENat, toLex (v.standardRelease, toLex (v.standardPre,
    toLex (v.standardPost, toLex (v.standardDev, v.standardLocal)))))

end Version

/-! ### Comparisons and orders -/

theorem compares_compare {α : Type*} [LinearOrder α] (a b : α) : (compare a b).Compares a b := by
  cases h : compare a b with
  | lt => exact compare_lt_iff_lt.1 h
  | eq => exact compare_eq_iff_eq.1 h
  | gt => exact compare_gt_iff_gt.1 h

/-- Order embeddings keep a comparison. -/
theorem compares_of_strictMono {α β : Type*} [Preorder α] [Preorder β] {f : α → β}
    (hf : StrictMono f) {o : Ordering} {a b : α} (h : o.Compares a b) :
    o.Compares (f a) (f b) := by
  cases o with
  | lt => exact hf h
  | eq => exact congrArg f h
  | gt => exact hf h

/-- Comparing pairs part by part is their lexicographic order. -/
theorem compares_then {α β : Type*} [LinearOrder α] [LinearOrder β] {o p : Ordering} {a a' : α}
    {b b' : β} (h : o.Compares a a') (h' : p.Compares b b') :
    (o.then p).Compares (toLex (a, b)) (toLex (a', b')) := by
  cases o with
  | lt => exact Prod.Lex.toLex_lt_toLex.2 (.inl h)
  | gt => exact Prod.Lex.toLex_lt_toLex.2 (.inl h)
  | eq =>
    obtain rfl : a = a' := h
    cases p with
    | lt => exact Prod.Lex.toLex_lt_toLex.2 (.inr ⟨rfl, h'⟩)
    | gt => exact Prod.Lex.toLex_lt_toLex.2 (.inr ⟨rfl, h'⟩)
    | eq => exact congrArg (fun b ↦ toLex (a, b)) h'

/-- Comparing lists head first is their order. -/
theorem compares_cons {α : Type*} [LinearOrder α] {o p : Ordering} {a a' : α} {l l' : List α}
    (h : o.Compares a a') (h' : p.Compares l l') : (o.then p).Compares (a :: l) (a' :: l') := by
  cases o with
  | lt => exact List.Lex.rel h
  | gt => exact List.Lex.rel h
  | eq =>
    obtain rfl : a = a' := h
    cases p with
    | lt => exact List.Lex.cons h'
    | gt => exact List.Lex.cons h'
    | eq => exact congrArg (List.cons a) h'

/-- A comparison that a map turns into an order does so on lists. -/
theorem compares_map {α β : Type*} [Ord α] [LinearOrder β] {f : α → β}
    (hf : ∀ a b, (compare a b).Compares (f a) (f b)) :
    ∀ l l' : List α, (compare l l').Compares (l.map f) (l'.map f)
  | [], [] => rfl
  | [], _ :: _ => List.Lex.nil
  | _ :: _, [] => List.Lex.nil
  | a :: l, b :: l' => by
    rw [List.compare_cons_cons]
    exact compares_cons (hf a b) (compares_map hf l l')

/-! ### The parts of the key -/

theorem Magnitude.compare_compares (m n : Magnitude) :
    (compare m n).Compares m.toENat n.toENat := by
  cases m with
  | finite m =>
    cases n with
    | finite n => exact compares_of_strictMono Nat.strictMono_cast (compares_compare m n)
    | infinite => exact ENat.natCast_lt_top m
  | infinite =>
    cases n with
    | finite n => exact ENat.natCast_lt_top n
    | infinite => exact rfl

theorem LocalPart.compare_compares (p q : LocalPart) :
    (compare p q).Compares p.standardKey q.standardKey := by
  cases p with
  | number m =>
    cases q with
    | number n => exact compares_of_strictMono Sum.Lex.inr_strictMono (m.compare_compares n)
    | text t => exact Sum.Lex.inl_lt_inr t m.toENat
  | text s =>
    cases q with
    | number n => exact Sum.Lex.inl_lt_inr s n.toENat
    | text t => exact compares_of_strictMono Sum.Lex.inl_strictMono (compares_compare s t)

namespace Version

/-- A place below everything is compared as one. -/
theorem compares_place {p q : Option Magnitude} :
    (compare (p.elim Place.before .number) (q.elim Place.before .number)).Compares
      (p.elim (⊥ : WithBot ℕ∞) fun n ↦ n.toENat) (q.elim ⊥ fun n ↦ n.toENat) := by
  cases p with
  | none =>
    cases q with
    | none => exact rfl
    | some n => exact WithBot.bot_lt_coe n.toENat
  | some m =>
    cases q with
    | none => exact WithBot.bot_lt_coe m.toENat
    | some n => exact compares_of_strictMono WithBot.coe_strictMono (m.compare_compares n)

theorem postKey_compares (a b : Version) :
    (compare a.postKey b.postKey).Compares a.standardPost b.standardPost :=
  compares_place

/-- The development number of versions where it is not infinite. -/
theorem devKey_compares {a b : Version} (ha : a.dev ≠ some .infinite)
    (hb : b.dev ≠ some .infinite) :
    (compare a.devKey b.devKey).Compares a.standardDev b.standardDev := by
  unfold devKey standardDev
  cases hda : a.dev with
  | none =>
    cases hdb : b.dev with
    | none => exact rfl
    | some n =>
      cases n with
      | infinite => exact absurd hdb hb
      | finite n => exact WithTop.coe_lt_top _
  | some m =>
    cases hdb : b.dev with
    | none =>
      cases m with
      | infinite => exact absurd hda ha
      | finite m => exact WithTop.coe_lt_top _
    | some n => exact compares_of_strictMono WithTop.coe_strictMono (m.compare_compares n)

theorem localParts_compares (a b : Version) :
    (compare a.localParts b.localParts).Compares a.standardLocal b.standardLocal := by
  unfold standardLocal
  cases a.localParts with
  | none =>
    cases b.localParts with
    | none => exact rfl
    | some qs => exact WithBot.bot_lt_coe _
  | some ps =>
    cases b.localParts with
    | none => exact WithBot.bot_lt_coe _
    | some qs =>
      exact compares_of_strictMono WithBot.coe_strictMono
        (compares_map LocalPart.compare_compares ps qs)

theorem preKey_of_pre_eq_none {v : Version} (h : v.pre = none) :
    v.preKey = [if v.dev.isSome ∧ v.post = none then .before else .number .infinite] := by
  unfold preKey
  rw [h]
  cases v.post <;> cases v.dev <;> rfl

theorem standardPre_of_pre_eq_none {v : Version} (h : v.pre = none) :
    v.standardPre =
      if v.dev.isSome ∧ v.post = none then (⊥ : WithBot (WithTop (Fin 3 ×ₗ ℕ∞)))
      else (⊤ : WithTop (Fin 3 ×ₗ ℕ∞)) := by
  unfold standardPre
  rw [h]

theorem preKey_of_pre_eq_some {v : Version} {p : PreRelease} (h : v.pre = some p) :
    v.preKey = [.number (.finite p.phase.rank), .number p.number] := by
  unfold preKey
  rw [h]

theorem standardPre_of_pre_eq_some {v : Version} {p : PreRelease} (h : v.pre = some p) :
    v.standardPre = ((toLex (p.phase.position, p.number.toENat) : Fin 3 ×ₗ ℕ∞) :
      WithTop (Fin 3 ×ₗ ℕ∞)) := by
  unfold standardPre
  rw [h]

/-- A version without pre-release is on one side of all pre-releases, which side depending on
whether it is a mere development release. -/
theorem preKey_compares_of_none_of_some {a b : Version} {q : PreRelease} (ha : a.pre = none)
    (hb : b.pre = some q) : (compare a.preKey b.preKey).Compares a.standardPre b.standardPre := by
  rw [preKey_of_pre_eq_none ha, standardPre_of_pre_eq_none ha, preKey_of_pre_eq_some hb,
    standardPre_of_pre_eq_some hb]
  split_ifs
  · exact WithBot.bot_lt_coe _
  · exact WithBot.coe_lt_coe.2 (WithTop.coe_lt_top _)

theorem rank_compares (p q : Phase) :
    (compare (Magnitude.finite p.rank) (.finite q.rank)).Compares p.position q.position := by
  have hrank : compare (Magnitude.finite p.rank) (.finite q.rank) =
      compare p.position q.position := by
    cases p <;> cases q <;> rfl
  rw [hrank]
  exact compares_compare p.position q.position

theorem preKey_compares (a b : Version) :
    (compare a.preKey b.preKey).Compares a.standardPre b.standardPre := by
  cases ha : a.pre with
  | none =>
    cases hb : b.pre with
    | none =>
      rw [preKey_of_pre_eq_none ha, standardPre_of_pre_eq_none ha, preKey_of_pre_eq_none hb,
        standardPre_of_pre_eq_none hb]
      split_ifs
      · exact rfl
      · exact WithBot.bot_lt_coe _
      · exact WithBot.bot_lt_coe _
      · exact rfl
    | some q => exact preKey_compares_of_none_of_some ha hb
  | some p =>
    cases hb : b.pre with
    | none =>
      rw [Std.OrientedOrd.eq_swap (a := a.preKey)]
      exact (preKey_compares_of_none_of_some hb ha).swap
    | some q =>
      rw [preKey_of_pre_eq_some ha, standardPre_of_pre_eq_some ha, preKey_of_pre_eq_some hb,
        standardPre_of_pre_eq_some hb, List.compare_cons_cons, List.compare_cons_cons,
        List.compare_nil_nil, Ordering.then_eq]
      have hpair := compares_then (rank_compares p.phase q.phase)
        (p.number.compare_compares q.number)
      exact compares_of_strictMono WithBot.coe_strictMono
        (compares_of_strictMono WithTop.coe_strictMono hpair)

/-- Trimming keeps one zero of a release that has no other segments. -/
theorem trimZeros_eq {l : List Magnitude} (hl : l ≠ []) :
    trimZeros l = if l.rdropWhile (fun n ↦ n = .finite 0) = [] then [.finite 0]
      else l.rdropWhile fun n ↦ n = .finite 0 := by
  cases l with
  | nil => exact absurd rfl hl
  | cons n ns =>
    rw [trimZeros, List.rdropWhile, List.reverse_cons, List.dropWhile_append]
    cases hns : ns.reverse.dropWhile (fun n ↦ n = .finite 0) with
    | nil =>
      by_cases hn : n = .finite 0
      · simp [hn]
      · simp [hn]
    | cons m ms => simp

/-- The zero of a trimmed release is before every release that does not end in zero. -/
theorem compare_zero_of_getLast {l : List Magnitude} (hl : l ≠ [])
    (hlast : l.getLast hl ≠ .finite 0) : compare [Magnitude.finite 0] l = .lt := by
  match l with
  | [] => exact absurd rfl hl
  | .infinite :: _ => rfl
  | .finite (k + 1) :: ns =>
    have hlt : compare (Magnitude.finite 0) (.finite (k + 1)) = .lt :=
      Nat.compare_eq_lt.2 k.succ_pos
    rw [List.compare_cons_cons, hlt]
    rfl
  | [.finite 0] => exact absurd rfl hlast
  | .finite 0 :: _ :: _ => rfl

/-- One zero more or less at the start of a release makes no difference between trimmed ones. -/
theorem compare_trimZeros {l l' : List Magnitude} (hl : l ≠ []) (hl' : l' ≠ []) :
    compare (trimZeros l) (trimZeros l') =
      compare (l.rdropWhile fun n ↦ n = .finite 0) (l'.rdropWhile fun n ↦ n = .finite 0) := by
  have hzero : ∀ m : List Magnitude, m.rdropWhile (fun n ↦ n = .finite 0) ≠ [] →
      compare [Magnitude.finite 0] (m.rdropWhile fun n ↦ n = .finite 0) = .lt := by
    intro m hm
    exact compare_zero_of_getLast hm (by simpa using List.rdropWhile_last_not _ m hm)
  have hnil : ∀ m : List Magnitude, m ≠ [] → compare [] m = .lt := by
    rintro (_ | ⟨_, _⟩) hm
    · exact absurd rfl hm
    · rfl
  rw [trimZeros_eq hl, trimZeros_eq hl']
  split_ifs with h h' h'
  · rw [h, h']
    exact Std.ReflOrd.compare_self
  · rw [h, hzero _ h', hnil _ h']
  · rw [h', Std.OrientedCmp.gt_of_lt (hzero _ h), Std.OrientedCmp.gt_of_lt (hnil _ h)]
  · rfl

theorem release_compares {a b : Version} (ha : a.release ≠ []) (hb : b.release ≠ []) :
    (compare (trimZeros a.release) (trimZeros b.release)).Compares a.standardRelease
      b.standardRelease := by
  rw [compare_trimZeros ha hb]
  exact compares_map Magnitude.compare_compares _ _

/-! ### The order -/

theorem order_compares {a b : Version} (ha : a.release ≠ []) (hb : b.release ≠ [])
    (hda : a.dev ≠ some .infinite) (hdb : b.dev ≠ some .infinite) :
    (order a b).Compares a.standardKey b.standardKey :=
  compares_then (a.epoch.compare_compares b.epoch) <|
    compares_then (release_compares ha hb) <|
    compares_then (preKey_compares a b) <|
    compares_then (postKey_compares a b) <|
    compares_then (devKey_compares hda hdb) (localParts_compares a b)

/-- **Versions are ordered as PEP 440 says.** Versions that were read compare by the key of the
standard, part after part. The one exception are development numbers past the range, which no
run of at most 308 digits denotes (`isFinite_of_parse?`). -/
theorem order_eq_cmp_standardKey {s t : String} {a b : Version} (ha : parse? s = some a)
    (hb : parse? t = some b) (hda : a.dev ≠ some .infinite) (hdb : b.dev ≠ some .infinite) :
    order a b = cmp a.standardKey b.standardKey :=
  (order_compares (release_ne_nil_of_parse? ha) (release_ne_nil_of_parse? hb) hda hdb).cmp_eq.symm

/-- A development release against a labelled pre-release of the same release. -/
theorem order_eq_cmp_standardKey_dev : ∃ a b,
    parse? "1.0.dev1" = some a ∧ parse? "1.0a1+Ubuntu.7" = some b ∧ a.dev ≠ some .infinite ∧
      b.dev ≠ some .infinite ∧ order a b = cmp a.standardKey b.standardKey := by
  let a : Version :=
    ⟨"1.0.dev1", .finite 0, [.finite 1, .finite 0], none, none, some (.finite 1), none⟩
  let b : Version :=
    ⟨"1.0a1+Ubuntu.7", .finite 0, [.finite 1, .finite 0], some ⟨.alpha, .finite 1⟩, none, none,
      some [.text "ubuntu", .number (.finite 7)]⟩
  have ha : parse? "1.0.dev1" = some a := by decide +kernel
  have hb : parse? "1.0a1+Ubuntu.7" = some b := by decide +kernel
  have hda : a.dev ≠ some .infinite := by decide
  have hdb : b.dev ≠ some .infinite := by decide
  exact ⟨a, b, ha, hb, hda, hdb, order_eq_cmp_standardKey ha hb hda hdb⟩

end Version

end IndexSnapshot
