import IndexSnapshot.Proofs.Distribution.Search

/-!
# Conventional file names

The name of a source archive is a name, a hyphen, a version and an extension; in the name of a built
file tags may follow the version behind a further hyphen. A file that is named by this convention
has the version that it is named with (`version?_conventional`), whatever its name and its tags look
like: no text that is tried before the version can be one.
-/

namespace IndexSnapshot.Distribution

variable {stem version name tail ext : List Char} {kind : FileKind} {v : Version}

theorem IsOneLine.append {cs ds : List Char} (hcs : Text.IsOneLine cs) (hds : Text.IsOneLine ds) :
    Text.IsOneLine (cs ++ ds) :=
  List.forall_mem_append.2 ⟨hcs, hds⟩

theorem isOneLine_hyphen : Text.IsOneLine ['-'] := by decide

/-- A version without hyphens that ends the stem is the shortest text behind a hyphen that is
one. -/
theorem tells_source (hhyphen : '-' ∉ version) (hread : read? version = some v) :
    Tells (name ++ '-' :: version) v .source := by
  refine ⟨version, ⟨name, rfl⟩, hread, fun other ⟨front, hstem⟩ hshorter ↦ absurd ?_ hhyphen⟩
  -- a shorter end of the stem is an end of the version, with the hyphen in front of it
  have hsuffix : '-' :: other <:+ '-' :: version := by
    refine List.suffix_of_suffix_length_le (List.suffix_append front _) ?_
      (Nat.succ_le_succ hshorter.le)
    rw [← hstem]
    exact List.suffix_append name _
  rcases List.suffix_cons_iff.1 hsuffix with heq | hsuffix
  · rw [(List.cons.inj heq).2] at hshorter
    exact absurd hshorter (lt_irrefl _)
  · exact hsuffix.subset List.mem_cons_self

/-- What a built file may have behind its version: nothing, or tags behind a hyphen. -/
def IsTail (tail : List Char) : Prop := tail = [] ∨ ∃ tags, tail = '-' :: tags

/-- A version without hyphens behind a name without hyphens is the first field behind the name. -/
theorem tells_built (hname : '-' ∉ name) (hhyphen : '-' ∉ version) (htail : IsTail tail)
    (hread : read? version = some v) : Tells (name ++ '-' :: (version ++ tail)) v .built := by
  have hfields : fields (name ++ '-' :: (version ++ tail)) = (version ++ tail).splitOn '-' := by
    rw [fields, List.splitOn_append_cons_self_of_not_mem hname, List.tail_cons]
  rcases htail with rfl | ⟨tags, rfl⟩
  · refine ⟨[], version, [], ?_, hread, List.forall_mem_nil _⟩
    rw [hfields, List.append_nil, List.splitOn_eq_singleton hhyphen]
    rfl
  · refine ⟨[], version, tags.splitOn '-', ?_, hread, List.forall_mem_nil _⟩
    rw [hfields, List.splitOn_append_cons_self_of_not_mem hhyphen]
    rfl

/-- A file has the version that its stem tells. -/
theorem version?_of_tells {filename : String} (hname : filename.toList = stem ++ '.' :: ext)
    (hne : stem ≠ []) (hhead : stem.head? ≠ some '-') (hline : Text.IsOneLine stem)
    (hext : kind.IsExtension ext) (htells : Tells stem v kind) : version? filename = some v :=
  version?_eq_some_iff.2 ⟨stem, kind, ⟨hne, hline, ext, hname, hext⟩, hhead, htells⟩

/-- **A file has the version that it is named with.** -/
theorem version?_conventional {version : String} (hhyphen : '-' ∉ version.toList)
    (hline : Text.IsOneLine version.toList) (hversion : (Version.parse? version).isSome = true) :
    (∀ name ext : String, name ≠ "" → name.toList.head? ≠ some '-' → Text.IsOneLine name.toList →
      FileKind.source.IsExtension ext.toList →
        version? (name ++ "-" ++ version ++ "." ++ ext) = Version.parse? version) ∧
    ∀ name tail ext : String, name ≠ "" → '-' ∉ name.toList → Text.IsOneLine name.toList →
      (tail = "" ∨ ∃ tags, tail = "-" ++ tags) → Text.IsOneLine tail.toList →
      FileKind.built.IsExtension ext.toList →
        version? (name ++ "-" ++ version ++ tail ++ "." ++ ext) = Version.parse? version := by
  obtain ⟨v, hv⟩ := Option.isSome_iff_exists.1 hversion
  have hread : read? version.toList = some v := by rw [read?, String.ofList_toList, hv]
  rw [hv]
  constructor
  · intro name ext hne hhead hname hext
    have hne : name.toList ≠ [] := mt String.toList_eq_nil_iff.1 hne
    have hstem : (name ++ "-" ++ version ++ "." ++ ext).toList =
        (name.toList ++ '-' :: version.toList) ++ '.' :: ext.toList := by simp
    have hline : Text.IsOneLine (name.toList ++ '-' :: version.toList) :=
      IsOneLine.append hname (IsOneLine.append isOneLine_hyphen hline)
    refine version?_of_tells hstem (by simp) ?_ hline hext (tells_source hhyphen hread)
    rwa [List.head?_append_of_ne_nil _ hne]
  · intro name tail ext hne hnohyphen hname htail htailLine hext
    have hne : name.toList ≠ [] := mt String.toList_eq_nil_iff.1 hne
    have htail : IsTail tail.toList := htail.imp (fun h ↦ by simp [h])
      fun ⟨tags, h⟩ ↦ ⟨tags.toList, by simp [h]⟩
    have hstem : (name ++ "-" ++ version ++ tail ++ "." ++ ext).toList =
        (name.toList ++ '-' :: (version.toList ++ tail.toList)) ++ '.' :: ext.toList := by simp
    have hline : Text.IsOneLine (name.toList ++ '-' :: (version.toList ++ tail.toList)) :=
      IsOneLine.append hname (IsOneLine.append isOneLine_hyphen (IsOneLine.append hline htailLine))
    refine version?_of_tells hstem (by simp) ?_ hline hext
      (tells_built hnohyphen hhyphen htail hread)
    rw [List.head?_append_of_ne_nil _ hne]
    exact fun h ↦ hnohyphen (List.mem_of_head? h)

/-- A name and tags that look like versions themselves, and extensions in capitals. -/
theorem version?_conventional_decoys : '-' ∉ "2.0rc1".toList ∧ Text.IsOneLine "2.0rc1".toList ∧
    (Version.parse? "2.0rc1").isSome = true ∧
    version? ("pkg-1.0-3" ++ "-" ++ "2.0rc1" ++ "." ++ "Tar.GZ") = Version.parse? "2.0rc1" ∧
    version? ("1.0" ++ "-" ++ "2.0rc1" ++ "-4-py3-none" ++ "." ++ "WHL") =
      Version.parse? "2.0rc1" := by
  have hhyphen : '-' ∉ "2.0rc1".toList := by decide
  have hline : Text.IsOneLine "2.0rc1".toList := by decide
  have hversion : (Version.parse? "2.0rc1").isSome = true := by decide +kernel
  obtain ⟨hsource, hbuilt⟩ := version?_conventional hhyphen hline hversion
  exact ⟨hhyphen, hline, hversion,
    hsource "pkg-1.0-3" "Tar.GZ" (by decide) (by decide) (by decide) (by decide),
    hbuilt "1.0" "-4-py3-none" "WHL" (by decide) (by decide) (by decide)
      (.inr ⟨"4-py3-none", by decide⟩) (by decide) (by decide)⟩

end IndexSnapshot.Distribution
