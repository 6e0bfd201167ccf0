import IndexSnapshot.Version.Order
import Mathlib.Data.List.Sort

/-!
# Versions are totally preordered

The parts of the sort key are linearly ordered, so their comparisons are transitive and agree with
equality, and the lexicographic comparison of versions inherits both facts part by part. Nothing
here asks where a version comes from: the facts hold of infinite numbers too.

* `Version.order` is a total preorder (the instance `Std.TransCmp Version.order`);
* two versions are the same exactly when all six parts of their sort keys are equal
  (`Version.isSame_iff_keys`).
-/

namespace IndexSnapshot

/-! ### The parts of the sort key -/

instance : Std.TransOrd Magnitude where
  eq_swap {a b} :=
    match a, b with
    | .finite _, .finite _ => Std.OrientedOrd.eq_swap (α := Nat)
    | .finite _, .infinite | .infinite, .finite _ | .infinite, .infinite => rfl
  isLE_trans {a b c} hab hbc :=
    match a, b, c, hab, hbc with
    | .finite _, .finite _, .finite _, hab, hbc => Std.TransOrd.isLE_trans (α := Nat) hab hbc
    | .finite _, _, .infinite, _, _ | .infinite, .infinite, .infinite, _, _ => rfl

instance : Std.LawfulEqOrd Magnitude where
  eq_of_compare {a b} h :=
    match a, b, h with
    | .finite _, .finite _, h => congrArg Magnitude.finite (Std.LawfulEqOrd.eq_of_compare h)
    | .infinite, .infinite, _ => rfl

instance : Std.TransOrd LocalPart where
  eq_swap {a b} :=
    match a, b with
    | .number _, .number _ => Std.OrientedOrd.eq_swap (α := Magnitude)
    | .number _, .text _ | .text _, .number _ => rfl
    | .text _, .text _ => Std.OrientedOrd.eq_swap (α := String)
  isLE_trans {a b c} hab hbc :=
    match a, b, c, hab, hbc with
    | .number _, .number _, .number _, hab, hbc =>
      Std.TransOrd.isLE_trans (α := Magnitude) hab hbc
    | .text _, .text _, .text _, hab, hbc => Std.TransOrd.isLE_trans (α := String) hab hbc
    | .text _, _, .number _, _, _ => rfl

instance : Std.LawfulEqOrd LocalPart where
  compare_self {a} :=
    match a with
    | .number _ => Std.ReflOrd.compare_self (α := Magnitude)
    | .text _ => Std.ReflOrd.compare_self (α := String)
  eq_of_compare {a b} h :=
    match a, b, h with
    | .number _, .number _, h => congrArg LocalPart.number (Std.LawfulEqOrd.eq_of_compare h)
    | .text _, .text _, h => congrArg LocalPart.text (Std.LawfulEqOrd.eq_of_compare h)

instance : Std.TransOrd Place where
  eq_swap {a b} :=
    match a, b with
    | .number _, .number _ => Std.OrientedOrd.eq_swap (α := Magnitude)
    | .before, .before | .before, .number _ | .number _, .before => rfl
  isLE_trans {a b c} hab hbc :=
    match a, b, c, hab, hbc with
    | .number _, .number _, .number _, hab, hbc =>
      Std.TransOrd.isLE_trans (α := Magnitude) hab hbc
    | .before, _, .before, _, _ | .before, _, .number _, _, _ => rfl

instance : Std.LawfulEqOrd Place where
  eq_of_compare {a b} h :=
    match a, b, h with
    | .number _, .number _, h => congrArg Place.number (Std.LawfulEqOrd.eq_of_compare h)
    | .before, .before, _ => rfl

namespace Version

/-! ### The order of versions -/

/-- **Versions are totally preordered**, part by part of the sort key. -/
instance : Std.TransCmp order := by
  unfold order
  infer_instance

theorem isSame_iff {a b : Version} : a.isSame b = true ↔ order a b = .eq := by
  rw [isSame, beq_iff_eq]

theorem isSame_refl (a : Version) : a.isSame a = true :=
  isSame_iff.2 Std.ReflCmp.compare_self

theorem isSame_symm {a b : Version} (h : a.isSame b = true) : b.isSame a = true :=
  isSame_iff.2 (Std.OrientedCmp.eq_symm (isSame_iff.1 h))

theorem isSame_comm (a b : Version) : a.isSame b = b.isSame a :=
  Bool.eq_iff_iff.2 ⟨isSame_symm, isSame_symm⟩

theorem isSame_trans {a b c : Version} (hab : a.isSame b = true) (hbc : b.isSame c = true) :
    a.isSame c = true :=
  isSame_iff.2 (Std.TransCmp.eq_trans (isSame_iff.1 hab) (isSame_iff.1 hbc))

/-- Same versions are the same as the same versions. -/
theorem isSame_congr_left {a b : Version} (h : a.isSame b = true) (c : Version) :
    a.isSame c = b.isSame c :=
  Bool.eq_iff_iff.2 ⟨isSame_trans (isSame_symm h), isSame_trans h⟩

/-- A version that is older than another is not the same. -/
theorem isSame_eq_false_of_lt {a b : Version} (h : order a b = .lt) : a.isSame b = false := by
  rw [isSame, h]
  rfl

/-- **Sameness is equality of the sort keys**, since every part of the key is linearly ordered. -/
theorem isSame_iff_keys {a b : Version} :
    a.isSame b = true ↔
      a.epoch = b.epoch ∧ trimZeros a.release = trimZeros b.release ∧ preKey a = preKey b ∧
        postKey a = postKey b ∧ devKey a = devKey b ∧ a.localParts = b.localParts := by
  simp only [isSame_iff, order, compareLex_eq_eq, compareOn, Std.LawfulEqOrd.compare_eq_iff_eq]

/-! ### Sorting -/

theorem isLE_order_trans (a b c : Version) (hab : (order a b).isLE = true)
    (hbc : (order b c).isLE = true) : (order a c).isLE = true :=
  Std.TransCmp.isLE_trans hab hbc

theorem isLE_order_total (a b : Version) : ((order a b).isLE || (order b a).isLE) = true := by
  have hswap : order b a = (order a b).swap := Std.OrientedCmp.eq_swap
  rw [hswap]
  cases order a b <;> rfl

variable {α : Type} (version : α → Version)

theorem sortOldestFirst_perm (items : List α) : (sortOldestFirst version items).Perm items :=
  List.mergeSort_perm items _

theorem sortOldestFirst_pairwise (items : List α) :
    (sortOldestFirst version items).Pairwise fun a b ↦
      (order (version a) (version b)).isLE = true :=
  List.pairwise_mergeSort (fun a b c ↦ isLE_order_trans (version a) (version b) (version c))
    (fun a b ↦ isLE_order_total (version a) (version b)) items

/-- **The sort is stable**: items that are in order among themselves keep their order. -/
theorem sublist_sortOldestFirst {items l : List α}
    (hl : l.Pairwise fun a b ↦ (order (version a) (version b)).isLE = true)
    (h : l.Sublist items) : l.Sublist (sortOldestFirst version items) :=
  List.sublist_mergeSort (fun a b c ↦ isLE_order_trans (version a) (version b) (version c))
    (fun a b ↦ isLE_order_total (version a) (version b)) hl h

/-- The sort puts the items, from the last one on, before all that are not older. -/
theorem sortOldestFirst_eq_insertionSort (items : List α) : sortOldestFirst version items =
    items.insertionSort fun a b ↦ (order (version a) (version b)).isLE = true := by
  induction items with
  | nil => exact List.mergeSort_nil
  | cons a items ih =>
    obtain ⟨older, rest, hcons, hitems, holder⟩ := List.mergeSort_cons
      (fun a b c ↦ isLE_order_trans (version a) (version b) (version c))
      (fun a b ↦ isLE_order_total (version a) (version b)) a items
    have hsorted := sortOldestFirst_pairwise version (a :: items)
    rw [sortOldestFirst, hcons] at hsorted ⊢
    rw [List.insertionSort_cons, ← ih, sortOldestFirst, hitems]
    have hrest : rest.orderedInsert (fun a b ↦ (order (version a) (version b)).isLE = true) a =
        a :: rest := by
      cases rest with
      | nil => rfl
      | cons b rest =>
        have hle := (List.pairwise_cons.1 (List.pairwise_append.1 hsorted).2.1).1 b
          List.mem_cons_self
        exact List.orderedInsert_cons_of_le _ _ hle
    clear hsorted hcons hitems ih
    induction older with
    | nil => exact hrest.symm
    | cons b older ih =>
      obtain ⟨hb, holder⟩ := List.forall_mem_cons.1 holder
      rw [List.cons_append, List.cons_append, List.orderedInsert_of_not_le _ _ (by simpa using hb),
        ← ih holder]

end Version

end IndexSnapshot
