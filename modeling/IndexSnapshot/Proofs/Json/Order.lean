import IndexSnapshot.Proofs.Json.Members
import Mathlib.Data.List.Dedup

/-!
# The order of members

The names of an object are first the indices among the names that it was given, in ascending order,
and after them the other names in the order in which they were first given
(`arranged_members_ofPairs`). One more name keeps this arrangement (`arranged_insert`). Members
whose names are arranged are left as they are when an object is made of them again
(`ofPairs_of_isOrdered`), so that an object that is read from its own text has its members in the
same places.
-/

namespace IndexSnapshot.Json

open Magnitude (digitsValue)

variable {name other : String} {i j : ℕ} {value : Json} {given names others : List String}
  {indices : List ℕ} {members pairs : List (String × Json)}

/-! ### Indices -/

/-- The name is the decimal form of a number below `2 ^ 32 - 1`. -/
def IsIndex (name : String) : Prop := ∃ i < 2 ^ 32 - 1, name = toString i

theorem toList_toString (i : ℕ) : (toString i).toList = Nat.toDigits 10 i := by
  rw [Nat.toString_eq_ofList_toDigits, String.toList_ofList]

theorem toString_inj : toString i = toString j ↔ i = j := by
  refine ⟨fun h ↦ ?_, congrArg _⟩
  rw [← Number.digitsValue_toDigits i, ← toList_toString, h, toList_toString,
    Number.digitsValue_toDigits]

/-- Digits of which the first is no zero are the decimal form of what they denote. -/
theorem eq_toDigits_of_head {d : Char} {ds : List Char} (hd : d ≠ '0')
    (h : ∀ c ∈ d :: ds, c.isDigit = true) :
    d :: ds = Nat.toDigits 10 (digitsValue (d :: ds)) := by
  obtain ⟨zeros, hzeros⟩ := Number.mem_numeral_digitsValue (List.cons_ne_nil d ds) h
  cases zeros with
  | zero => exact hzeros
  | succ zeros => exact absurd (List.cons_eq_cons.1 hzeros).1 hd

/-- **A text denotes the index whose decimal form it is.** -/
theorem textIndex?_eq_some_iff : textIndex? name = some i ↔ i < 2 ^ 32 - 1 ∧ name = toString i := by
  have hlimit : Nat.pow 2 32 - 1 = 2 ^ 32 - 1 := rfl
  rw [← String.toList_inj, toList_toString, textIndex?, hlimit]
  generalize name.toList = cs
  split
  · exact ⟨nofun, fun h ↦ absurd h.2.symm (List.ne_nil_of_length_pos Nat.length_toDigits_pos)⟩
  · constructor
    · rintro ⟨⟩
      exact ⟨by norm_num, rfl⟩
    · rintro ⟨-, h⟩
      have hvalue := congrArg digitsValue h
      rw [Number.digitsValue_toDigits] at hvalue
      exact congrArg some hvalue
  · rename_i tail hne
    refine ⟨nofun, fun ⟨_, h⟩ ↦ ?_⟩
    rcases Nat.eq_zero_or_pos i with rfl | hpos
    · exact absurd (List.cons_eq_cons.1 h).2 fun htail ↦ hne (by rw [htail])
    · obtain ⟨d, digits, hdigits, hd⟩ := (isLeading_toDigits hpos).head
      rw [hdigits] at h
      exact absurd (List.cons_eq_cons.1 h).1.symm hd
  · rename_i hnil hzero hleading
    obtain ⟨d, ds, rfl⟩ := List.exists_cons_of_ne_nil hnil
    have hd : d ≠ '0' := fun heq ↦ hleading ds (by rw [heq])
    constructor
    · intro h
      dsimp only at h
      split at h
      · rename_i hdigits
        obtain rfl := Option.some.inj h
        exact ⟨hdigits.2, eq_toDigits_of_head hd (List.all_eq_true.1 hdigits.1)⟩
      · cases h
    · rintro ⟨hlt, h⟩
      have hvalue : digitsValue (d :: ds) = i := by rw [h, Number.digitsValue_toDigits]
      have hall : (d :: ds).all Char.isDigit = true := by
        rw [List.all_eq_true, h]
        exact fun c hc ↦ Nat.isDigit_of_mem_toDigits (by decide) (by decide) hc
      rw [if_pos ⟨hall, hvalue ▸ hlt⟩, hvalue]

theorem index?_eq_some_iff : index? name = some i ↔ i < 2 ^ 32 - 1 ∧ name = toString i :=
  (Eq.congr_left (index?_ofString name)).trans textIndex?_eq_some_iff

theorem index?_toString (hi : i < 2 ^ 32 - 1) : index? (toString i) = some i :=
  index?_eq_some_iff.2 ⟨hi, rfl⟩

theorem index?_eq_none_iff : index? name = none ↔ ¬ IsIndex name := by
  simp only [Option.eq_none_iff_forall_ne_some, ne_eq, index?_eq_some_iff, IsIndex, not_exists]

instance (name : String) : Decidable (IsIndex name) :=
  decidable_of_iff ((index? name).isSome = true) (by
    rw [← not_iff_not, ← index?_eq_none_iff, Option.not_isSome_iff_eq_none])

/-! ### Which name stands first -/

theorem precedes_of_not_isIndex (h : ¬ IsIndex name) (other : String) :
    precedes name other = false := by
  rw [precedes, index?_eq_none_iff.2 h]

theorem precedes_toString_of_not_isIndex (hi : i < 2 ^ 32 - 1) (h : ¬ IsIndex other) :
    precedes (toString i) other = true := by
  rw [precedes, index?_toString hi, index?_eq_none_iff.2 h]

theorem precedes_toString (hi : i < 2 ^ 32 - 1) (hj : j < 2 ^ 32 - 1) :
    precedes (toString i) (toString j) = decide (i < j) := by
  rw [precedes, index?_toString hi, index?_toString hj]

/-! ### One more name -/

/-- The names that are no indices, in the order in which they are first given. -/
def otherNames (given : List String) : List String :=
  (given.filter fun name ↦ ¬ IsIndex name).reverse.dedup.reverse

theorem mem_otherNames : name ∈ otherNames given ↔ name ∈ given ∧ ¬ IsIndex name := by
  simp [otherNames]

theorem nodup_otherNames (given : List String) : (otherNames given).Nodup :=
  List.nodup_reverse.2 (List.nodup_dedup _)

theorem otherNames_append_of_isIndex (h : IsIndex name) (given : List String) :
    otherNames (given ++ [name]) = otherNames given := by
  simp [otherNames, h]

theorem otherNames_append (h : ¬ IsIndex name) (given : List String) :
    otherNames (given ++ [name]) =
      if name ∈ given then otherNames given else otherNames given ++ [name] := by
  have hfilter : (given ++ [name]).filter (fun name ↦ ¬ IsIndex name) =
      given.filter (fun name ↦ ¬ IsIndex name) ++ [name] := by simp [h]
  have hmem : name ∈ (given.filter fun name ↦ ¬ IsIndex name).reverse ↔ name ∈ given := by simp [h]
  rw [otherNames, hfilter, List.reverse_append, List.reverse_singleton, List.singleton_append]
  split
  · rename_i hgiven
    rw [List.dedup_cons_of_mem (hmem.2 hgiven), otherNames]
  · rename_i hgiven
    rw [List.dedup_cons_of_notMem (mt hmem.1 hgiven), List.reverse_cons, otherNames]

/-- The names are arranged as an object arranges names that it is given. -/
def Arranged (given names : List String) : Prop :=
  ∃ indices : List ℕ, indices.Pairwise (· < ·) ∧
    (∀ i, i ∈ indices ↔ i < 2 ^ 32 - 1 ∧ toString i ∈ given) ∧
    names = indices.map toString ++ otherNames given

/-- Ascending indices with one more, if it is not there. -/
def insertIndex (i : ℕ) : List ℕ → List ℕ
  | [] => [i]
  | j :: indices =>
    if j = i then j :: indices
    else if i < j then i :: j :: indices
    else j :: insertIndex i indices

theorem mem_insertIndex : j ∈ insertIndex i indices ↔ j = i ∨ j ∈ indices := by
  induction indices with
  | nil => exact List.mem_cons
  | cons k indices ih =>
    rw [insertIndex]
    split_ifs with heq hlt
    · subst heq
      simp
    · exact List.mem_cons
    · rw [List.mem_cons, ih, List.mem_cons, or_left_comm]

theorem pairwise_insertIndex (h : indices.Pairwise (· < ·)) (i : ℕ) :
    (insertIndex i indices).Pairwise (· < ·) := by
  induction indices with
  | nil => exact List.pairwise_singleton _ _
  | cons k indices ih =>
    obtain ⟨hfirst, hindices⟩ := List.pairwise_cons.1 h
    rw [insertIndex]
    split_ifs with heq hlt
    · exact h
    · refine List.pairwise_cons.2 ⟨List.forall_mem_cons.2 ⟨hlt, fun j hj ↦ ?_⟩, h⟩
      exact hlt.trans (hfirst j hj)
    · refine List.pairwise_cons.2 ⟨fun j hj ↦ ?_, ih hindices⟩
      rcases mem_insertIndex.1 hj with rfl | hj
      · omega
      · exact hfirst j hj

/-- **An index is put in its place among the indices**, if it is not there. -/
theorem map_fst_insert_toString (hi : i < 2 ^ 32 - 1) (hlt : ∀ j ∈ indices, j < 2 ^ 32 - 1)
    (hothers : ∀ other ∈ others, ¬ IsIndex other)
    (h : members.map Prod.fst = indices.map toString ++ others) (value : Json) :
    (insert (toString i) value members).map Prod.fst =
      (insertIndex i indices).map toString ++ others := by
  induction indices generalizing members with
  | nil =>
    rw [List.map_nil, List.nil_append] at h
    subst h
    cases members with
    | nil => rfl
    | cons member members =>
      have hfirst : ¬ IsIndex member.1 := hothers _ List.mem_cons_self
      have hne : member.1 ≠ toString i := fun heq ↦ hfirst ⟨i, hi, heq⟩
      rw [insert, if_neg hne, if_pos (precedes_toString_of_not_isIndex hi hfirst)]
      rfl
  | cons j indices ih =>
    obtain ⟨hj, hlt⟩ := List.forall_mem_cons.1 hlt
    cases members with
    | nil => cases h
    | cons member members =>
      obtain ⟨first, old⟩ := member
      obtain rfl : first = toString j := (List.cons_eq_cons.1 h).1
      have hrest : members.map Prod.fst = indices.map toString ++ others :=
        (List.cons_eq_cons.1 h).2
      rw [insert, insertIndex, precedes_toString hi hj]
      simp only [toString_inj, decide_eq_true_iff]
      split_ifs with heq hij
      · rw [heq, List.map_cons, hrest]
        rfl
      · rw [List.map_cons, List.map_cons, hrest]
        rfl
      · rw [List.map_cons, ih hlt hrest]
        rfl

/-- **Any other name is put behind all names**, if it is not there. -/
theorem map_fst_insert (h : ¬ IsIndex name) (value : Json) (members : List (String × Json)) :
    (insert name value members).map Prod.fst =
      if name ∈ members.map Prod.fst then members.map Prod.fst
      else members.map Prod.fst ++ [name] := by
  induction members with
  | nil => rfl
  | cons member members ih =>
    obtain ⟨first, old⟩ := member
    rw [insert, precedes_of_not_isIndex h]
    by_cases heq : first = name
    · subst heq
      simp
    · have hne : name ≠ first := Ne.symm heq
      rw [if_neg heq, if_neg Bool.false_ne_true, List.map_cons, ih]
      simp only [List.map_cons, List.mem_cons, hne, false_or]
      split <;> rfl

/-- **One more name keeps the arrangement.** -/
theorem arranged_insert (h : Arranged given (members.map Prod.fst)) (name : String) (value : Json) :
    Arranged (given ++ [name]) ((insert name value members).map Prod.fst) := by
  obtain ⟨indices, hascending, hmem, hnames⟩ := h
  have hothers : ∀ other ∈ otherNames given, ¬ IsIndex other := fun _ hother ↦
    (mem_otherNames.1 hother).2
  by_cases hindex : IsIndex name
  · obtain ⟨i, hi, rfl⟩ := hindex
    have hlt : ∀ j ∈ indices, j < 2 ^ 32 - 1 := fun j hj ↦ ((hmem j).1 hj).1
    refine ⟨insertIndex i indices, pairwise_insertIndex hascending i, fun j ↦ ?_, ?_⟩
    · rw [mem_insertIndex, hmem, List.mem_append, List.mem_singleton, toString_inj]
      constructor
      · rintro (rfl | ⟨hj, hgiven⟩)
        · exact ⟨hi, .inr rfl⟩
        · exact ⟨hj, .inl hgiven⟩
      · rintro ⟨hj, hgiven | rfl⟩
        · exact .inr ⟨hj, hgiven⟩
        · exact .inl rfl
    · rw [map_fst_insert_toString hi hlt hothers hnames, otherNames_append_of_isIndex ⟨i, hi, rfl⟩]
  · refine ⟨indices, hascending, fun j ↦ ?_, ?_⟩
    · rw [hmem, List.mem_append, List.mem_singleton]
      refine and_congr_right fun hj ↦ ⟨.inl, fun hgiven ↦ hgiven.resolve_right ?_⟩
      exact fun heq ↦ hindex ⟨j, hj, heq.symm⟩
    · have hnot : name ∉ indices.map toString := by
        intro hname
        obtain ⟨j, hj, rfl⟩ := List.mem_map.1 hname
        exact hindex ⟨j, ((hmem j).1 hj).1, rfl⟩
      rw [map_fst_insert hindex, hnames, otherNames_append hindex]
      simp only [List.mem_append, hnot, false_or, mem_otherNames, hindex, not_false_eq_true,
        and_true]
      split
      · rfl
      · rw [List.append_assoc]

/-- **The names of an object are arranged.** -/
theorem arranged_members_ofPairs (pairs : List (String × Json)) :
    Arranged (pairs.map Prod.fst) ((ofPairs pairs).members.map Prod.fst) := by
  induction pairs using List.reverseRecOn with
  | nil => exact ⟨[], .nil, by simp, rfl⟩
  | append_singleton pairs pair ih =>
    rw [members_ofPairs_append, List.map_append]
    exact arranged_insert ih pair.1 pair.2

/-- Names that are arranged are in order. -/
theorem Arranged.isOrdered (h : Arranged given names) : IsOrdered names := by
  obtain ⟨indices, hascending, hmem, rfl⟩ := h
  have hothers : ∀ other ∈ otherNames given, ¬ IsIndex other := fun _ hother ↦
    (mem_otherNames.1 hother).2
  refine List.pairwise_append.2 ⟨?_, ?_, ?_⟩
  · refine List.pairwise_map.2 (hascending.imp_of_mem fun {i j} hi hj hij ↦ ?_)
    rw [precedes_toString ((hmem j).1 hj).1 ((hmem i).1 hi).1]
    exact ⟨mt toString_inj.1 hij.ne, decide_eq_false hij.not_gt⟩
  · refine (nodup_otherNames given).imp_of_mem fun {name other} _ hother hne ↦ ?_
    exact ⟨hne, precedes_of_not_isIndex (hothers other hother) name⟩
  · intro name hname other hother
    obtain ⟨i, hi, rfl⟩ := List.mem_map.1 hname
    have hindex := hothers other hother
    refine ⟨?_, precedes_of_not_isIndex hindex _⟩
    rintro rfl
    exact hindex ⟨i, ((hmem i).1 hi).1, rfl⟩

end IndexSnapshot.Json
