import IndexSnapshot.Text.Split
import Mathlib.Data.List.TakeWhile

/-!
# Laws of splitting

Splitting a text at marks comes apart at each mark, and putting a slash in front of every piece
gives the text back when the slash is the only mark in it. Cutting a text does nothing where it has
no mark.
-/

namespace IndexSnapshot.Text

variable {isMark : Char → Bool} {c : Char} {cs ds : List Char}

/-! ### Pieces -/

theorem splitAtMarks_ne_nil (isMark : Char → Bool) (cs : List Char) :
    splitAtMarks isMark cs ≠ [] := by
  cases cs with
  | nil => exact List.cons_ne_nil _ _
  | cons c cs =>
    rw [splitAtMarks]
    split
    · exact List.cons_ne_nil _ _
    · split <;> exact List.cons_ne_nil _ _

theorem splitAtMarks_cons_of_mark (h : isMark c = true) :
    splitAtMarks isMark (c :: cs) = [] :: splitAtMarks isMark cs := by
  rw [splitAtMarks, if_pos h]

theorem splitAtMarks_cons_of_not_mark {piece : List Char} {pieces : List (List Char)}
    (h : isMark c = false) (hcs : splitAtMarks isMark cs = piece :: pieces) :
    splitAtMarks isMark (c :: cs) = (c :: piece) :: pieces := by
  rw [splitAtMarks, if_neg (by simp [h]), hcs]

/-- **A text comes apart at a mark.** -/
theorem splitAtMarks_append_mark (h : isMark c = true) (cs ds : List Char) :
    splitAtMarks isMark (cs ++ c :: ds) = splitAtMarks isMark cs ++ splitAtMarks isMark ds := by
  induction cs with
  | nil => exact splitAtMarks_cons_of_mark h
  | cons d cs ih =>
    obtain ⟨piece, pieces, hpieces⟩ := List.exists_cons_of_ne_nil (splitAtMarks_ne_nil isMark cs)
    rw [hpieces, List.cons_append] at ih
    by_cases hd : isMark d = true
    · rw [List.cons_append, splitAtMarks_cons_of_mark hd, ih, splitAtMarks_cons_of_mark hd,
        hpieces]
      rfl
    · have hd : isMark d = false := by simpa using hd
      rw [List.cons_append, splitAtMarks_cons_of_not_mark hd ih,
        splitAtMarks_cons_of_not_mark hd hpieces]
      rfl

/-- A text without marks is a single piece. -/
theorem splitAtMarks_of_forall (h : ∀ c ∈ cs, isMark c = false) :
    splitAtMarks isMark cs = [cs] := by
  induction cs with
  | nil => rfl
  | cons c cs ih =>
    have hcs := ih fun d hd ↦ h d (List.mem_cons_of_mem c hd)
    exact splitAtMarks_cons_of_not_mark (h c List.mem_cons_self) hcs

/-- Only the marks in the text itself matter. -/
theorem splitAtMarks_congr {isMark' : Char → Bool} (h : ∀ c ∈ cs, isMark c = isMark' c) :
    splitAtMarks isMark cs = splitAtMarks isMark' cs := by
  induction cs with
  | nil => rfl
  | cons c cs ih =>
    rw [splitAtMarks, splitAtMarks, h c List.mem_cons_self,
      ih fun d hd ↦ h d (List.mem_cons_of_mem c hd)]

/-- The characters of the pieces are those of the text that are no marks. -/
theorem of_mem_splitAtMarks {piece : List Char} (hpiece : piece ∈ splitAtMarks isMark cs)
    (hc : c ∈ piece) : c ∈ cs ∧ isMark c = false := by
  induction cs generalizing piece with
  | nil =>
    rw [splitAtMarks, List.mem_singleton] at hpiece
    exact absurd (hpiece ▸ hc) List.not_mem_nil
  | cons d cs ih =>
    obtain ⟨first, pieces, hpieces⟩ := List.exists_cons_of_ne_nil (splitAtMarks_ne_nil isMark cs)
    by_cases hd : isMark d = true
    · rw [splitAtMarks_cons_of_mark hd, List.mem_cons] at hpiece
      rcases hpiece with rfl | hpiece
      · exact absurd hc List.not_mem_nil
      · exact ⟨List.mem_cons_of_mem d (ih hpiece hc).1, (ih hpiece hc).2⟩
    · have hd : isMark d = false := by simpa using hd
      rw [splitAtMarks_cons_of_not_mark hd hpieces, List.mem_cons] at hpiece
      have hrest : ∀ piece ∈ splitAtMarks isMark cs, c ∈ piece → c ∈ d :: cs ∧ isMark c = false :=
        fun piece hmem hc ↦ ⟨List.mem_cons_of_mem d (ih hmem hc).1, (ih hmem hc).2⟩
      rw [hpieces] at hrest
      rcases hpiece with rfl | hpiece
      · rcases List.mem_cons.1 hc with rfl | hc
        · exact ⟨List.mem_cons_self, hd⟩
        · exact hrest first List.mem_cons_self hc
      · exact hrest piece (List.mem_cons_of_mem first hpiece) hc

/-- Every piece behind a slash, when no other mark is in the text. -/
theorem flatMap_slash_splitAtMarks (honly : ∀ c ∈ cs, isMark c = true → c = '/') :
    (splitAtMarks isMark cs).flatMap (fun piece ↦ '/' :: piece) = '/' :: cs := by
  induction cs with
  | nil => rfl
  | cons c cs ih =>
    have ih := ih fun d hd ↦ honly d (List.mem_cons_of_mem c hd)
    obtain ⟨piece, pieces, hpieces⟩ := List.exists_cons_of_ne_nil (splitAtMarks_ne_nil isMark cs)
    by_cases hc : isMark c = true
    · rw [splitAtMarks_cons_of_mark hc, List.flatMap_cons, ih, honly c List.mem_cons_self hc]
      rfl
    · have hc : isMark c = false := by simpa using hc
      rw [hpieces, List.flatMap_cons, List.cons_append] at ih
      rw [splitAtMarks_cons_of_not_mark hc hpieces, List.flatMap_cons, List.cons_append,
        List.cons_append, List.tail_eq_of_cons_eq ih]

/-- The pieces between marks of one kind, put together again. -/
theorem intercalate_splitAtMarks (mark : Char) (cs : List Char) :
    List.intercalate [mark] (splitAtMarks (· = mark) cs) = cs := by
  induction cs with
  | nil => rfl
  | cons c cs ih =>
    obtain ⟨piece, pieces, hpieces⟩ :=
      List.exists_cons_of_ne_nil (splitAtMarks_ne_nil (· = mark) cs)
    by_cases hc : c = mark
    · rw [splitAtMarks_cons_of_mark (decide_eq_true hc), hpieces, List.intercalate_cons_cons,
        ← hpieces, ih, hc]
      rfl
    · rw [splitAtMarks_cons_of_not_mark (decide_eq_false hc) hpieces]
      rw [hpieces] at ih
      cases pieces with
      | nil => rw [← ih]; simp
      | cons next pieces =>
        rw [List.intercalate_cons_cons] at ih ⊢
        rw [← ih]
        simp

theorem of_mem_intercalate {mark : Char} {pieces : List (List Char)}
    (h : c ∈ List.intercalate [mark] pieces) : c = mark ∨ ∃ piece ∈ pieces, c ∈ piece := by
  induction pieces with
  | nil => exact absurd h List.not_mem_nil
  | cons piece pieces ih =>
    cases pieces with
    | nil => exact .inr ⟨piece, List.mem_cons_self, by simpa using h⟩
    | cons next pieces =>
      rw [List.intercalate_cons_cons, List.mem_append, List.mem_append, List.mem_singleton] at h
      rcases h with (h | rfl) | h
      · exact .inr ⟨piece, List.mem_cons_self, h⟩
      · exact .inl rfl
      · exact (ih h).imp id fun ⟨other, hother, hc⟩ ↦ ⟨other, List.mem_cons_of_mem piece hother, hc⟩

theorem mem_intercalate {mark : Char} {pieces : List (List Char)} {piece : List Char}
    (hpiece : piece ∈ pieces) (hc : c ∈ piece) : c ∈ List.intercalate [mark] pieces := by
  induction pieces with
  | nil => cases hpiece
  | cons first pieces ih =>
    cases pieces with
    | nil =>
      rw [List.intercalate_singleton]
      exact List.mem_singleton.1 hpiece ▸ hc
    | cons next pieces =>
      rw [List.intercalate_cons_cons, List.mem_append]
      rcases List.mem_cons.1 hpiece with rfl | hpiece
      · exact .inl (List.mem_append_left _ hc)
      · exact .inr (ih hpiece)

/-! ### Pieces that are read -/

theorem exists_of_mapM_cons {α β : Type} {f : α → Option β} {a : α} {as : List α} {bs : List β}
    (h : (a :: as).mapM f = some bs) :
    ∃ b bs', f a = some b ∧ as.mapM f = some bs' ∧ bs = b :: bs' := by
  rw [List.mapM_cons] at h
  obtain ⟨b, hb, h⟩ := Option.bind_eq_some_iff.1 h
  obtain ⟨bs', hbs, h⟩ := Option.bind_eq_some_iff.1 h
  exact ⟨b, bs', hb, hbs, (Option.some.inj h).symm⟩

/-- What holds of every reading holds of all that is read. -/
theorem forall_mem_of_mapM {α β : Type} {f : α → Option β} {P : β → Prop}
    (hf : ∀ a b, f a = some b → P b) {as : List α} {bs : List β} (h : as.mapM f = some bs) :
    ∀ b ∈ bs, P b := by
  induction as generalizing bs with
  | nil =>
    cases h
    exact fun b hb ↦ absurd hb List.not_mem_nil
  | cons a as ih =>
    obtain ⟨b, bs, hb, hbs, rfl⟩ := exists_of_mapM_cons h
    exact List.forall_mem_cons.2 ⟨hf a b hb, ih hbs⟩

theorem exists_mem_of_mapM {α β : Type} {f : α → Option β} {as : List α} {bs : List β}
    (h : as.mapM f = some bs) {a : α} (ha : a ∈ as) : ∃ b ∈ bs, f a = some b := by
  induction as generalizing bs with
  | nil => cases ha
  | cons first as ih =>
    obtain ⟨b, bs, hb, hbs, rfl⟩ := exists_of_mapM_cons h
    rcases List.mem_cons.1 ha with rfl | ha
    · exact ⟨b, List.mem_cons_self, hb⟩
    · obtain ⟨b', hb', ha⟩ := ih hbs ha
      exact ⟨b', List.mem_cons_of_mem b hb', ha⟩

theorem mapM_of_forall {α : Type} {f : α → Option α} {as : List α}
    (h : ∀ a ∈ as, f a = some a) : as.mapM f = some as := by
  induction as with
  | nil => rfl
  | cons a as ih =>
    rw [List.mapM_cons, h a List.mem_cons_self, ih fun a' ha' ↦ h a' (List.mem_cons_of_mem a ha')]
    rfl

/-- Reading that keeps everything. -/
theorem eq_of_mapM {α : Type} {f : α → Option α} {as bs : List α} (h : as.mapM f = some bs)
    (hf : ∀ a ∈ as, ∀ b, f a = some b → b = a) : bs = as := by
  induction as generalizing bs with
  | nil =>
    cases h
    rfl
  | cons a as ih =>
    obtain ⟨b, bs, hb, hbs, rfl⟩ := exists_of_mapM_cons h
    rw [hf a List.mem_cons_self b hb, ih hbs fun a' ha' ↦ hf a' (List.mem_cons_of_mem a ha')]

/-! ### Cuts -/

theorem cutAt_of_forall (h : ∀ c ∈ cs, isMark c = false) : cutAt isMark cs = (cs, none) := by
  have hnone : cs.dropWhile (fun c ↦ !isMark c) = [] :=
    List.dropWhile_eq_nil_iff.2 fun c hc ↦ by simp [h c hc]
  rw [cutAt, hnone]

theorem cutAt_fst (isMark : Char → Bool) (cs : List Char) :
    (cutAt isMark cs).1 = cs.takeWhile fun c ↦ !isMark c := by
  unfold cutAt
  split
  · rename_i hnone
    have happend := List.takeWhile_append_dropWhile (p := fun c ↦ !isMark c) (l := cs)
    rw [hnone, List.append_nil] at happend
    exact happend.symm
  · rfl

theorem prefix_cutAt {pre : List Char} (h : pre <+: cs) (hpre : ∀ c ∈ pre, isMark c = false) :
    pre <+: (cutAt isMark cs).1 := by
  obtain ⟨rest, rfl⟩ := h
  have hkept : ∀ c ∈ pre, (!isMark c) = true := fun c hc ↦ by rw [hpre c hc]; rfl
  unfold cutAt
  split
  · exact List.prefix_append _ _
  · rw [List.takeWhile_append_of_pos hkept]
    exact List.prefix_append _ _

theorem cutAt_append_mark (h : ∀ c ∈ cs, isMark c = false) (hc : isMark c = true) :
    cutAt isMark (cs ++ c :: ds) = (cs, some ds) := by
  have hbefore : ∀ d ∈ cs, (!isMark d) = true := fun d hd ↦ by simp [h d hd]
  rw [cutAt, List.dropWhile_append_of_pos hbefore, List.takeWhile_append_of_pos hbefore,
    List.dropWhile_cons_of_neg (by simp [hc]), List.takeWhile_cons_of_neg (by simp [hc]),
    List.append_nil]

theorem cutAtLast_of_forall (h : ∀ c ∈ cs, isMark c = false) :
    cutAtLast isMark cs = (none, cs) := by
  have hcut := cutAt_of_forall fun c hc ↦ h c (List.mem_reverse.1 hc)
  rw [cutAtLast, hcut]
  simp

theorem cutAtLast_append_mark (cs : List Char) (h : ∀ c ∈ ds, isMark c = false)
    (hc : isMark c = true) : cutAtLast isMark (cs ++ c :: ds) = (some cs, ds) := by
  have hcut : cutAt isMark (ds.reverse ++ c :: cs.reverse) = (ds.reverse, some cs.reverse) :=
    cutAt_append_mark (fun d hd ↦ h d (List.mem_reverse.1 hd)) hc
  have hreverse : (cs ++ c :: ds).reverse = ds.reverse ++ c :: cs.reverse := by simp
  rw [cutAtLast, hreverse, hcut]
  simp

end IndexSnapshot.Text
