import IndexSnapshot.Proofs.Distribution.Stem
import Mathlib.Data.List.Basic

/-!
# The search for a version

The version of a file is told by its stem. In a source archive it is the shortest text that follows
a hyphen and is a version, so that hyphens in the name do no harm; in a built file it is the first
of the fields between hyphens that is one, the name left out (`Distribution.Tells`). The search
tries the texts behind every hyphen one after the other, and comes to just that
(`version?_eq_some_iff`): for source archives the texts tried grow from one to the next, and for
built files they are the fields of the stem.
-/

namespace IndexSnapshot.Distribution

variable {filename stem text : List Char} {kind : FileKind} {v : Version}

/-- The version that a text is. -/
abbrev read? (text : List Char) : Option Version := Version.parse? (String.ofList text)

/-- The fields of a stem behind the name, which hyphens keep apart. -/
def fields (stem : List Char) : List (List Char) := (stem.splitOn '-').tail

/-- The text may be the version: it follows a hyphen and runs to the end of the stem, or is a field
behind the name. -/
def MayTell (stem text : List Char) : FileKind → Prop
  | .source => ∃ name, stem = name ++ '-' :: text
  | .built => text ∈ fields stem

/-- The version that a stem tells: the shortest text that is one, or the first field that is one. -/
def Tells (stem : List Char) (v : Version) : FileKind → Prop
  | .source => ∃ text, MayTell stem text .source ∧ read? text = some v ∧
      ∀ other, MayTell stem other .source → other.length < text.length → read? other = none
  | .built => ∃ earlier field later, fields stem = earlier ++ field :: later ∧
      read? field = some v ∧ ∀ other ∈ earlier, read? other = none

/-! ### Texts behind hyphens -/

theorem mem_afterHyphens_iff : text ∈ afterHyphens stem ↔ ∃ name, stem = name ++ '-' :: text := by
  induction stem with
  | nil => simp [afterHyphens]
  | cons c cs ih =>
    have hcons : (∃ name, c :: cs = name ++ '-' :: text) ↔
        (c = '-' ∧ cs = text) ∨ ∃ name, cs = name ++ '-' :: text := by
      constructor
      · rintro ⟨_ | ⟨d, name⟩, h⟩
        · exact .inl (List.cons.inj h)
        · exact .inr ⟨name, (List.cons.inj h).2⟩
      · rintro (⟨rfl, rfl⟩ | ⟨name, rfl⟩)
        · exact ⟨[], rfl⟩
        · exact ⟨c :: name, rfl⟩
    rw [hcons, afterHyphens, ← ih]
    split
    · rename_i hc
      simp [hc, eq_comm]
    · rename_i hc
      simp [hc]

/-- The texts behind hyphens grow shorter from one to the next. -/
theorem afterHyphens_pairwise (stem : List Char) :
    (afterHyphens stem).Pairwise fun text later ↦ later.length < text.length := by
  induction stem with
  | nil => exact .nil
  | cons c cs ih =>
    rw [afterHyphens]
    split
    · refine List.pairwise_cons.2 ⟨fun text htext ↦ ?_, ih⟩
      obtain ⟨name, rfl⟩ := mem_afterHyphens_iff.1 htext
      simp only [List.length_append, List.length_cons]
      omega
    · exact ih

/-- A text is split at its hyphens by cutting what is behind each of them at the next one. -/
theorem splitOn_hyphen (stem : List Char) : stem.splitOn '-' =
    stem.takeWhile (· ≠ '-') :: (afterHyphens stem).map (·.takeWhile (· ≠ '-')) := by
  induction stem with
  | nil => rfl
  | cons c cs ih =>
    rw [List.splitOn_cons_eq_if_modifyHead, ih, afterHyphens]
    by_cases hc : c = '-'
    · rw [if_pos (beq_iff_eq.2 hc), if_pos hc, List.takeWhile_cons_of_neg (by simp [hc]),
        List.map_cons]
    · rw [if_neg (mt beq_iff_eq.1 hc), if_neg hc, List.takeWhile_cons_of_pos (by simp [hc]),
        List.modifyHead_cons]

theorem fields_eq (stem : List Char) :
    fields stem = (afterHyphens stem).map (·.takeWhile (· ≠ '-')) := by
  rw [fields, splitOn_hyphen, List.tail_cons]

/-! ### The texts that are tried -/

theorem candidates_source (h : stem.head? ≠ some '-') :
    candidates .source stem = (afterHyphens stem).reverse :=
  if_neg h

theorem candidates_built (h : stem.head? ≠ some '-') : candidates .built stem = fields stem := by
  rw [fields_eq]
  exact if_neg h

theorem candidates_of_head? (h : stem.head? = some '-') (kind : FileKind) :
    candidates kind stem = [] :=
  if_pos h

theorem mem_candidates_iff :
    text ∈ candidates kind stem ↔ stem.head? ≠ some '-' ∧ MayTell stem text kind := by
  by_cases h : stem.head? = some '-'
  · rw [candidates_of_head? h]
    simp [h]
  · match kind with
    | .source =>
      rw [candidates_source h, List.mem_reverse, mem_afterHyphens_iff]
      exact (and_iff_right h).symm
    | .built =>
      rw [candidates_built h]
      exact (and_iff_right h).symm

/-- What is found first in a list that grows is found in the least item that gives anything. -/
theorem findSome?_eq_some_iff_of_pairwise {α β : Type} {f : α → Option β} {size : α → ℕ}
    {l : List α}
    {b : β} (hl : l.Pairwise fun x y ↦ size x < size y) : l.findSome? f = some b ↔
      ∃ a ∈ l, f a = some b ∧ ∀ x ∈ l, size x < size a → f x = none := by
  rw [List.findSome?_eq_some_iff]
  constructor
  · rintro ⟨before, a, after, rfl, ha, hbefore⟩
    have hafter := (List.pairwise_cons.1 (List.pairwise_append.1 hl).2.1).1
    refine ⟨a, by simp, ha, fun x hx hsize ↦ ?_⟩
    rcases List.mem_append.1 hx with hx | hx
    · exact hbefore x hx
    · rcases List.mem_cons.1 hx with rfl | hx
      · exact absurd hsize (lt_irrefl _)
      · exact absurd hsize (hafter x hx).not_gt
  · rintro ⟨a, ha, hb, hsmaller⟩
    obtain ⟨before, after, rfl⟩ := List.append_of_mem ha
    refine ⟨before, a, after, rfl, hb, fun x hx ↦ ?_⟩
    exact hsmaller x (List.mem_append_left _ hx)
      ((List.pairwise_append.1 hl).2.2 x hx a List.mem_cons_self)

/-- **The search through a stem finds what the stem tells.** -/
theorem findSome?_candidates_iff : (candidates kind stem).findSome? read? = some v ↔
    stem.head? ≠ some '-' ∧ Tells stem v kind := by
  by_cases h : stem.head? = some '-'
  · rw [candidates_of_head? h]
    simp [h]
  · rw [and_iff_right h]
    match kind with
    | .source =>
      have hgrows := List.pairwise_reverse.2 (afterHyphens_pairwise stem)
      rw [candidates_source h, findSome?_eq_some_iff_of_pairwise hgrows]
      simp only [List.mem_reverse, mem_afterHyphens_iff, Tells, MayTell]
    | .built =>
      rw [candidates_built h, List.findSome?_eq_some_iff]
      rfl

/-! ### The version of a file -/

theorem version?_eq (filename : String) : version? filename =
    (stem? filename.toList).bind fun (stem, kind) ↦ (candidates kind stem).findSome? read? :=
  rfl

theorem version?_eq_some_iff {filename : String} : version? filename = some v ↔
    ∃ stem kind, IsNamed filename.toList stem kind ∧ stem.head? ≠ some '-' ∧ Tells stem v kind := by
  rw [version?_eq, Option.bind_eq_some_iff]
  constructor
  · rintro ⟨⟨stem, kind⟩, hstem, hfound⟩
    exact ⟨stem, kind, stem?_eq_some_iff.1 hstem, findSome?_candidates_iff.1 hfound⟩
  · rintro ⟨stem, kind, hnamed, htells⟩
    exact ⟨(stem, kind), stem?_eq_some_iff.2 hnamed, findSome?_candidates_iff.2 htells⟩

theorem version?_eq_none_iff {filename : String} : version? filename = none ↔
    ∀ stem kind, IsNamed filename.toList stem kind → stem.head? = some '-' ∨
      ∀ text, MayTell stem text kind → read? text = none := by
  rw [version?_eq, Option.bind_eq_none_iff]
  constructor
  · intro h stem kind hnamed
    have hnone := List.findSome?_eq_none_iff.1 (h (stem, kind) (stem?_eq_some_iff.2 hnamed))
    rw [or_iff_not_imp_left]
    exact fun hhead text htext ↦ hnone text (mem_candidates_iff.2 ⟨hhead, htext⟩)
  · rintro h ⟨stem, kind⟩ hstem
    refine List.findSome?_eq_none_iff.2 fun text htext ↦ ?_
    obtain ⟨hhead, hmay⟩ := mem_candidates_iff.1 htext
    exact (h stem kind (stem?_eq_some_iff.1 hstem)).resolve_left hhead text hmay

/-- **The search for a version is complete and keeps to its order**: a version is told exactly when
the name has a stem that tells it, and none exactly when no text that may be the version is one. -/
theorem version?_search (filename : String) :
    (∀ v, version? filename = some v ↔ ∃ stem kind, IsNamed filename.toList stem kind ∧
      stem.head? ≠ some '-' ∧ Tells stem v kind) ∧
    (version? filename = none ↔ ∀ stem kind, IsNamed filename.toList stem kind →
      stem.head? = some '-' ∨ ∀ text, MayTell stem text kind → read? text = none) :=
  ⟨fun _ ↦ version?_eq_some_iff, version?_eq_none_iff⟩

/-- One stem tells different versions in the names of an archive and of a built file. -/
example : (version? "pkg-2-3.tar.gz").map Version.raw = some "3" ∧
    (version? "pkg-2-3.whl").map Version.raw = some "2" := by decide +kernel

end IndexSnapshot.Distribution
