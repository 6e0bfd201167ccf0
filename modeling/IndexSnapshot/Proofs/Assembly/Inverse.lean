import IndexSnapshot.Assembly
import IndexSnapshot.Proofs.Text.Utf16

/-!
# Entries lead back to their files

A file is below a base when its address begins with the base (`Assembly.Below`), compared by 16-bit
units. An entry is what follows the base, so that putting the base in front of the entries gives the
addresses of the files below the base, in order and with repetitions, and the notices are about all
other files. The slash at the end of a base makes no difference: what is taken off and what is put
in front is the base with a slash in either case.
-/

namespace IndexSnapshot.Assembly

/-- The address begins with the base. -/
def Below (base url : String) : Prop := Text.utf16 base.toList <+: Text.utf16 url.toList

instance (base url : String) : Decidable (Below base url) :=
  inferInstanceAs (Decidable (_ <+: _))

/-! ### Bases -/

/-- A base that ends in a slash stays as it is. -/
theorem withSlash_of_getLast? {base : String} (h : base.toList.getLast? = some '/') :
    withSlash base = base := by
  rw [withSlash, if_pos h]

theorem getLast?_withSlash (base : String) : (withSlash base).toList.getLast? = some '/' := by
  unfold withSlash
  split
  · assumption
  · rw [String.toList_append]
    exact List.getLast?_concat

theorem withSlash_withSlash (base : String) : withSlash (withSlash base) = withSlash base :=
  withSlash_of_getLast? (getLast?_withSlash base)

/-! ### Places -/

/-- The place of a file is what follows the base. -/
theorem place?_eq_some_iff {base url entry : String} :
    place? base url = some entry ↔ url = base ++ entry := by
  rw [place?, Option.map_eq_some_iff]
  constructor
  · rintro ⟨rest, hrest, rfl⟩
    rw [← String.toList_inj, String.toList_append, String.toList_ofList]
    exact Text.strip?_eq_some.1 hrest
  · rintro rfl
    exact ⟨entry.toList, Text.strip?_eq_some.2 String.toList_append, String.ofList_toList⟩

/-- A file has a place when it is below the base. -/
theorem isSome_place?_iff {base url : String} : (place? base url).isSome ↔ Below base url := by
  rw [Below, Text.utf16_isPrefix_iff, Option.isSome_iff_exists]
  constructor
  · rintro ⟨entry, hentry⟩
    rw [place?_eq_some_iff.1 hentry, String.toList_append]
    exact List.prefix_append _ _
  · rintro ⟨rest, hrest⟩
    refine ⟨String.ofList rest, place?_eq_some_iff.2 ?_⟩
    rw [← String.toList_inj, String.toList_append, String.toList_ofList, hrest]

/-- The base in front of all entries gives the addresses below the base. -/
theorem map_append_entries (base : String) (urls : List String) :
    (entries base urls).map (base ++ ·) = urls.filter (Below base ·) := by
  induction urls with
  | nil => rfl
  | cons url urls ih =>
    rw [entries] at ih ⊢
    cases hplace : place? base url with
    | none =>
      have hbelow : ¬ Below base url := by
        rw [← isSome_place?_iff, hplace]
        exact Bool.false_ne_true
      rw [List.filterMap_cons_none hplace, List.filter_cons_of_neg (by simpa using hbelow), ih]
    | some entry =>
      have hbelow : Below base url := by
        rw [← isSome_place?_iff, hplace]
        rfl
      rw [List.filterMap_cons_some hplace, List.filter_cons_of_pos (by simpa using hbelow),
        List.map_cons, ih, ← place?_eq_some_iff.1 hplace]

/-- The notices are about the files that are not below the base. -/
theorem outside_eq (base : String) (urls : List String) :
    outside base urls = (urls.filter (¬ Below base ·)).map (.outsideBase · base) := by
  refine congrArg (List.map _) (List.filter_congr fun url _ ↦ ?_)
  rw [Bool.eq_iff_iff, decide_eq_true_iff, ← isSome_place?_iff, Option.isNone_iff_eq_none,
    Option.not_isSome_iff_eq_none]

/-! ### Snapshots -/

/-- **Entries and base give the addresses of the files stored below the base back**, and the notices
are about all others; the slash at the end of the base makes no difference. -/
theorem map_address_assemble (results : List (List Artifact)) (packageBase : String) :
    (assemble results packageBase).1.map (address · packageBase) =
        (results.flatten.map Artifact.url).filter (Below (withSlash packageBase) ·) ∧
      (assemble results packageBase).2 =
        ((results.flatten.map Artifact.url).filter (¬ Below (withSlash packageBase) ·)).map
          (.outsideBase · (withSlash packageBase)) ∧
      assemble results (withSlash packageBase) = assemble results packageBase ∧
      ∀ entry, address entry (withSlash packageBase) = address entry packageBase := by
  refine ⟨?_, outside_eq _ _, ?_, fun entry ↦ ?_⟩
  · exact map_append_entries (withSlash packageBase) (addresses results)
  · simp only [assemble, withSlash_withSlash]
  · simp only [address, withSlash_withSlash]

end IndexSnapshot.Assembly
