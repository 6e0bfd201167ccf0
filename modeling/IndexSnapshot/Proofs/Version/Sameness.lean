import IndexSnapshot.Proofs.Version.Acceptance
import IndexSnapshot.Proofs.Version.NormalForm
import IndexSnapshot.Proofs.Version.Preorder
import Mathlib.Data.List.DropRight
import Mathlib.Data.List.GetD

/-!
# What same versions have in common

Two identifiers agree when they say the same parts, zeros at the end of the release aside. Versions
are the same when their identifiers are alike, and that is less: numbers count only as far as they
are told apart when they are rounded, and beside a pre-release or a post-release a development
number past the range counts as none. Among identifiers whose numbers are kept as they are, being
alike is agreement (`isSame_iff_alike`).
-/

namespace IndexSnapshot.Version

variable {round : ℕ → Magnitude} {x y : Identifier}

/-! ### Agreement -/

namespace Identifier

/-- The identifiers say the same, zeros at the end of the release aside. -/
structure Agrees (x y : Identifier) : Prop where
  epoch : x.epoch = y.epoch
  release : ∀ i, x.release.getD i 0 = y.release.getD i 0
  pre : x.pre = y.pre
  post : x.post = y.post
  dev : x.dev = y.dev
  locals : x.locals = y.locals

/-- The identifiers cannot be told apart when their numbers are rounded, a development number past
the range counting as none beside a pre-release or a post-release. -/
structure Alike (round : ℕ → Magnitude) (x y : Identifier) : Prop where
  epoch : round x.epoch = round y.epoch
  release : ∀ i, round (x.release.getD i 0) = round (y.release.getD i 0)
  pre : (x.pre.map fun p ↦ (p.1, round p.2)) = y.pre.map fun p ↦ (p.1, round p.2)
  post : x.post.map round = y.post.map round
  dev : (x.dev.map round).getD .infinite = (y.dev.map round).getD .infinite
  isSome_dev : x.pre = none → x.post = none → x.dev.isSome = y.dev.isSome
  locals : x.locals.map (Segment.part round) = y.locals.map (Segment.part round)

end Identifier

/-! ### Releases without the zeros at their end -/

section Trim

variable {α : Type} [DecidableEq α] {z : α} {l l' : List α}

theorem rdropWhile_cons (a : α) (l : List α) :
    (a :: l).rdropWhile (fun b ↦ b = z) =
      if l.rdropWhile (fun b ↦ b = z) = [] ∧ a = z then []
      else a :: l.rdropWhile fun b ↦ b = z := by
  simp only [List.rdropWhile, List.reverse_cons, List.dropWhile_append, List.isEmpty_iff,
    List.reverse_eq_nil_iff]
  by_cases hl : l.reverse.dropWhile (fun b ↦ b = z) = []
  · by_cases ha : a = z <;> simp [hl, ha]
  · simp [hl]

/-- A list is nothing but zeros when it has zero at every place. -/
theorem rdropWhile_eq_nil_iff_getD :
    l.rdropWhile (fun b ↦ b = z) = [] ↔ ∀ i, l.getD i z = z := by
  simp only [List.rdropWhile_eq_nil_iff, decide_eq_true_eq]
  constructor
  · intro h i
    rcases Nat.lt_or_ge i l.length with hi | hi
    · rw [List.getD_eq_getElem l z hi]
      exact h _ (List.getElem_mem hi)
    · exact List.getD_eq_default l z hi
  · intro h a ha
    obtain ⟨i, hi, rfl⟩ := List.mem_iff_getElem.1 ha
    rw [← List.getD_eq_getElem l z hi]
    exact h i

/-- Lists are equal without the zeros at their end when they have the same at every place, with
zeros behind their ends. -/
theorem rdropWhile_eq_iff_getD :
    (l.rdropWhile fun b ↦ b = z) = (l'.rdropWhile fun b ↦ b = z) ↔
      ∀ i, l.getD i z = l'.getD i z := by
  induction l generalizing l' with
  | nil =>
    rw [List.rdropWhile_nil, eq_comm, rdropWhile_eq_nil_iff_getD]
    exact forall_congr' fun i ↦ eq_comm
  | cons a l ih =>
    cases l' with
    | nil =>
      rw [List.rdropWhile_nil, rdropWhile_eq_nil_iff_getD]
      rfl
    | cons b l' =>
      have hsplit : (∀ i, (a :: l).getD i z = (b :: l').getD i z) ↔
          a = b ∧ ∀ i, l.getD i z = l'.getD i z :=
        ⟨fun h ↦ ⟨h 0, fun i ↦ h (i + 1)⟩, fun h i ↦ i.casesOn h.1 h.2⟩
      rw [hsplit, ← ih, rdropWhile_cons, rdropWhile_cons]
      split_ifs with h h' h' <;> grind

end Trim

theorem trimZeros_cons (n : Magnitude) (ns : List Magnitude) :
    trimZeros (n :: ns) = n :: ns.rdropWhile fun m ↦ m = .finite 0 := rfl

/-- Trimmed releases are equal when they have the same segments, zeros behind their ends. -/
theorem trimZeros_eq_iff_getD {ns ms : List Magnitude} (hns : ns ≠ []) (hms : ms ≠ []) :
    trimZeros ns = trimZeros ms ↔ ∀ i, ns.getD i (.finite 0) = ms.getD i (.finite 0) := by
  obtain ⟨n, ns, rfl⟩ := List.exists_cons_of_ne_nil hns
  obtain ⟨m, ms, rfl⟩ := List.exists_cons_of_ne_nil hms
  rw [trimZeros_cons, trimZeros_cons, List.cons_eq_cons, rdropWhile_eq_iff_getD]
  exact ⟨fun h i ↦ i.casesOn h.1 h.2, fun h ↦ ⟨h 0, fun i ↦ h (i + 1)⟩⟩

/-! ### Keys -/

theorem rank_injective : Function.Injective Phase.rank := by
  rintro (_ | _ | _) (_ | _ | _) h
  all_goals first | rfl | cases h

/-- The place among the pre-releases tells the pre-release, and of a version with neither pre- nor
post-release whether it is a development release. -/
theorem preKey_eq_iff {a b : Version} (hpost : a.post = b.post) :
    preKey a = preKey b ↔
      a.pre = b.pre ∧ (a.pre = none → a.post = none → a.dev.isSome = b.dev.isSome) := by
  unfold preKey
  rw [← hpost]
  cases a.pre with
  | none =>
    cases b.pre with
    | none => cases a.post <;> cases a.dev <;> cases b.dev <;> simp
    | some q => cases a.post <;> cases a.dev <;> simp
  | some p =>
    cases b.pre with
    | none => cases a.post <;> cases b.dev <;> simp
    | some q =>
      obtain ⟨phase, n⟩ := p
      obtain ⟨phase', n'⟩ := q
      simp [rank_injective.eq_iff]

theorem postKey_eq_iff {a b : Version} : postKey a = postKey b ↔ a.post = b.post := by
  unfold postKey
  cases a.post <;> cases b.post <;> simp

/-- Sameness, part by part. -/
theorem isSame_iff_parts {a b : Version} (ha : a.release ≠ []) (hb : b.release ≠ []) :
    a.isSame b = true ↔
      a.epoch = b.epoch ∧ (∀ i, a.release.getD i (.finite 0) = b.release.getD i (.finite 0)) ∧
        a.pre = b.pre ∧ a.post = b.post ∧ a.dev.getD .infinite = b.dev.getD .infinite ∧
        (a.pre = none → a.post = none → a.dev.isSome = b.dev.isSome) ∧
        a.localParts = b.localParts := by
  rw [isSame_iff_keys, trimZeros_eq_iff_getD ha hb, postKey_eq_iff]
  constructor
  · rintro ⟨hepoch, hrelease, hpre, hpost, hdev, hlocal⟩
    obtain ⟨hpre, hisSome⟩ := (preKey_eq_iff hpost).1 hpre
    exact ⟨hepoch, hrelease, hpre, hpost, hdev, hisSome, hlocal⟩
  · rintro ⟨hepoch, hrelease, hpre, hpost, hdev, hisSome, hlocal⟩
    exact ⟨hepoch, hrelease, (preKey_eq_iff hpost).2 ⟨hpre, hisSome⟩, hpost, hdev, hlocal⟩

/-! ### Versions of identifiers -/

namespace Identifier

/-- Versions of identifiers are the same when the identifiers are alike. -/
theorem isSame_versionBy_iff (hround : round 0 = .finite 0) (s t : String) :
    (x.versionBy round s).isSame (y.versionBy round t) = true ↔ x.Alike round y := by
  have hrelease : ∀ (z : Identifier) (i : ℕ),
      (z.release.map round).getD i (.finite 0) = round (z.release.getD i 0) := by
    intro z i
    rw [← hround, List.getD_map]
  have hpre : (x.pre.map fun p ↦ (⟨p.1, round p.2⟩ : PreRelease)) =
      (y.pre.map fun p ↦ (⟨p.1, round p.2⟩ : PreRelease)) ↔
      (x.pre.map fun p ↦ (p.1, round p.2)) = y.pre.map fun p ↦ (p.1, round p.2) := by
    cases x.pre <;> cases y.pre <;> simp
  have hlocals : (if x.locals = [] then none else some (x.locals.map (Segment.part round))) =
      (if y.locals = [] then none else some (y.locals.map (Segment.part round))) ↔
      x.locals.map (Segment.part round) = y.locals.map (Segment.part round) := by
    cases x.locals <;> cases y.locals <;> simp
  rw [isSame_iff_parts (List.cons_ne_nil _ _) (List.cons_ne_nil _ _)]
  simp only [versionBy, hrelease, hpre, hlocals, Option.map_eq_none_iff, Option.isSome_map]
  constructor
  · rintro ⟨hepoch, hrelease, hpre, hpost, hdev, hisSome, hlocals⟩
    exact ⟨hepoch, hrelease, hpre, hpost, hdev, hisSome, hlocals⟩
  · intro h
    exact ⟨h.epoch, h.release, h.pre, h.post, h.dev, h.isSome_dev, h.locals⟩

theorem part_injective : Function.Injective (Segment.part .finite) := by
  rintro (n | t) (m | u) h
  · rw [Magnitude.finite.inj (LocalPart.number.inj h)]
  · cases h
  · cases h
  · have hchars : t.chars = u.chars := String.ofList_injective (LocalPart.text.inj h)
    cases t
    cases u
    cases hchars
    rfl

/-- Where numbers are as they are, being alike is agreement. -/
theorem alike_finite_iff : x.Alike .finite y ↔ x.Agrees y := by
  have hfinite : Function.Injective Magnitude.finite := fun _ _ ↦ Magnitude.finite.inj
  have hpair : Function.Injective fun p : Phase × ℕ ↦ (p.1, Magnitude.finite p.2) :=
    Function.Injective.prodMap Function.injective_id hfinite
  constructor
  · intro h
    refine ⟨hfinite h.epoch, fun i ↦ hfinite (h.release i), Option.map_injective hpair h.pre,
      Option.map_injective hfinite h.post, ?_, List.map_injective_iff.2 part_injective h.locals⟩
    have hdev := h.dev
    cases hx : x.dev <;> cases hy : y.dev <;> simp_all
  · intro h
    refine ⟨congrArg _ h.epoch, fun i ↦ congrArg _ (h.release i), ?_, ?_, ?_, fun _ _ ↦ ?_, ?_⟩
    · rw [h.pre]
    · rw [h.post]
    · rw [h.dev]
    · rw [h.dev]
    · rw [h.locals]

end Identifier

/-! ### Sameness -/

theorem isStable_versionBy (x : Identifier) (round : ℕ → Magnitude) (raw : String) :
    (x.versionBy round raw).isStable = (x.pre.isNone && x.dev.isNone) := by
  simp only [isStable, Identifier.versionBy, Option.isNone_map]

/-- **Same versions are alike.** Every text that is read spells an identifier, and two versions that
were read are the same exactly when the identifiers of their texts are alike. Where the numbers of
the identifiers are kept as they are, the versions are the same exactly when the identifiers agree,
and then they are equally stable. -/
theorem isSame_iff_alike {s t : String} {a b : Version} (ha : parse? s = some a)
    (hb : parse? t = some b) :
    (∃ x : Identifier, s.toList ∈ x.spellings) ∧ (∃ y : Identifier, t.toList ∈ y.spellings) ∧
      ∀ x y : Identifier, s.toList ∈ x.spellings → t.toList ∈ y.spellings →
        (a.isSame b = true ↔ x.Alike .ofNat y) ∧
          (x.IsExact → y.IsExact → (a.isSame b = true ↔ x.Agrees y) ∧
            (a.isSame b = true → a.isStable = b.isStable)) := by
  refine ⟨exists_mem_spellings (mem_language_of_parse? ha),
    exists_mem_spellings (mem_language_of_parse? hb), fun x y hx hy ↦ ?_⟩
  obtain rfl : x.rounded s = a := Option.some.inj ((parse?_of_mem_spellings hx).symm.trans ha)
  obtain rfl : y.rounded t = b := Option.some.inj ((parse?_of_mem_spellings hy).symm.trans hb)
  have hzero : Magnitude.ofNat 0 = .finite 0 := Magnitude.ofNat_of_lt (Nat.pow_pos Nat.two_pos)
  refine ⟨Identifier.isSame_versionBy_iff hzero s t, fun hxe hye ↦ ?_⟩
  have hagrees : (x.rounded s).isSame (y.rounded t) = true ↔ x.Agrees y := by
    rw [hxe.rounded_eq, hye.rounded_eq, ← Identifier.alike_finite_iff]
    exact Identifier.isSame_versionBy_iff rfl s t
  refine ⟨hagrees, fun hsame ↦ ?_⟩
  have h := hagrees.1 hsame
  rw [Identifier.rounded, Identifier.rounded, isStable_versionBy, isStable_versionBy, h.pre, h.dev]

/-- Development releases of one release that is written in two ways. -/
theorem isSame_iff_alike_dev : ∃ a b : Version, ∃ x y : Identifier,
    parse? "1.0.dev1" = some a ∧ parse? "1.0.0.dev1" = some b ∧
      "1.0.dev1".toList ∈ x.spellings ∧ "1.0.0.dev1".toList ∈ y.spellings ∧
      x.IsExact ∧ y.IsExact ∧ a.isSame b = true ∧ x.Agrees y ∧ a.isStable = b.isStable := by
  let x : Identifier := ⟨0, 1, [0], none, none, some 1, []⟩
  let y : Identifier := ⟨0, 1, [0, 0], none, none, some 1, []⟩
  have hx : x.normalForm = "1.0.dev1".toList := by decide
  have hy : y.normalForm = "1.0.0.dev1".toList := by decide
  have hxs : "1.0.dev1".toList ∈ x.spellings := hx ▸ normalForm_mem_spellings x
  have hys : "1.0.0.dev1".toList ∈ y.spellings := hy ▸ normalForm_mem_spellings y
  have hxe : x.IsExact := Identifier.isExact_of_lt (by decide)
  have hye : y.IsExact := Identifier.isExact_of_lt (by decide)
  have ha : parse? "1.0.dev1" = some (x.rounded "1.0.dev1") := parse?_of_mem_spellings hxs
  have hb : parse? "1.0.0.dev1" = some (y.rounded "1.0.0.dev1") := parse?_of_mem_spellings hys
  have hsame : (x.rounded "1.0.dev1").isSame (y.rounded "1.0.0.dev1") = true := by decide +kernel
  obtain ⟨-, -, h⟩ := isSame_iff_alike ha hb
  obtain ⟨hagrees, hstable⟩ := (h x y hxs hys).2 hxe hye
  exact ⟨_, _, x, y, ha, hb, hxs, hys, hxe, hye, hsame, hagrees.1 hsame, hstable hsame⟩

/-- Same versions need not say the same: two release segments past `2 ^ 53` may be rounded to one
number, and a development number past the range hides a development release of a post-release. -/
theorem isSame_of_not_agrees :
    (∃ a b : Version, ∃ x y : Identifier,
      parse? "1.9007199254740993" = some a ∧ parse? "1.9007199254740992" = some b ∧
        "1.9007199254740993".toList ∈ x.spellings ∧ "1.9007199254740992".toList ∈ y.spellings ∧
        a.isSame b = true ∧ ¬ x.Agrees y) ∧
      ∃ a b : Version,
        parse? (String.ofList ("1.0.post1.dev1".toList ++ List.replicate 309 '0')) = some a ∧
          parse? "1.0.post1" = some b ∧
          a.isSame b = true ∧ a.isStable = false ∧ b.isStable = true := by
  constructor
  · let x : Identifier := ⟨0, 1, [9007199254740993], none, none, none, []⟩
    let y : Identifier := ⟨0, 1, [9007199254740992], none, none, none, []⟩
    have hx : x.normalForm = "1.9007199254740993".toList := by decide +kernel
    have hy : y.normalForm = "1.9007199254740992".toList := by decide +kernel
    have hxs : "1.9007199254740993".toList ∈ x.spellings := hx ▸ normalForm_mem_spellings x
    have hys : "1.9007199254740992".toList ∈ y.spellings := hy ▸ normalForm_mem_spellings y
    have hsame :
        (x.rounded "1.9007199254740993").isSame (y.rounded "1.9007199254740992") = true := by
      decide +kernel
    exact ⟨_, _, x, y, parse?_of_mem_spellings hxs, parse?_of_mem_spellings hys, hxs, hys, hsame,
      fun h ↦ absurd (h.release 1) (by decide)⟩
  · let x : Identifier := ⟨0, 1, [0], none, some 1, some (10 ^ 309), []⟩
    let y : Identifier := ⟨0, 1, [0], none, some 1, none, []⟩
    have hx : x.normalForm = "1.0.post1.dev1".toList ++ List.replicate 309 '0' := by
      decide +kernel
    have hy : y.normalForm = "1.0.post1".toList := by decide
    have hxs : (String.ofList ("1.0.post1.dev1".toList ++ List.replicate 309 '0')).toList ∈
        x.spellings := by
      rw [String.toList_ofList, ← hx]
      exact normalForm_mem_spellings x
    have hys : "1.0.post1".toList ∈ y.spellings := hy ▸ normalForm_mem_spellings y
    refine ⟨_, _, parse?_of_mem_spellings hxs, parse?_of_mem_spellings hys, ?_, rfl, rfl⟩
    exact (Identifier.isSame_versionBy_iff (by decide +kernel) _ _).2
      ⟨rfl, fun i ↦ rfl, rfl, rfl, by decide +kernel, fun _ hpost ↦ (nomatch hpost), rfl⟩

end IndexSnapshot.Version
