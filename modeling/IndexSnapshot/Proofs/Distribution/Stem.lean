import IndexSnapshot.Distribution
import IndexSnapshot.Proofs.Text.Letters
import Mathlib.Data.List.Infix

/-!
# Stems of file names

The name of a distribution file is a stem, a point and an extension (`Distribution.IsNamed`). No
extension is another one with a point and more in front of it, so a name comes apart in one way
(`IsNamed.unique`), and the reader of stems finds it (`stem?_eq_some_iff`).
-/

namespace IndexSnapshot

/-- The extensions of the files of a kind, in small letters. -/
def FileKind.extensions : FileKind → List String
  | .source => ["tar.gz", "tar.bz2", "tar.xz", "zip"]
  | .built => ["whl", "exe", "egg"]

/-- The text is an extension of files of a kind, in any letter case. -/
def FileKind.IsExtension (kind : FileKind) (ext : List Char) : Prop :=
  String.ofList (Text.lower ext) ∈ kind.extensions

instance (kind : FileKind) (ext : List Char) : Decidable (kind.IsExtension ext) :=
  inferInstanceAs (Decidable (_ ∈ kind.extensions))

/-- No character of the text ends a line. -/
def Text.IsOneLine (cs : List Char) : Prop := ∀ c ∈ cs, isLineEnd c = false

instance (cs : List Char) : Decidable (Text.IsOneLine cs) :=
  List.decidableBAll (Text.isLineEnd · = false) cs

/-- To end in a word in any letter case. -/
theorem Text.stripSuffix?_eq_some {suffix cs stem : List Char} :
    stripSuffix? suffix cs = some stem ↔ ∃ taken, cs = stem ++ taken ∧ lower taken = suffix := by
  constructor
  · intro h
    simp only [stripSuffix?, Option.ite_none_right_eq_some, Option.some.injEq] at h
    obtain ⟨hlower, rfl⟩ := h
    exact ⟨_, (List.take_append_drop _ _).symm, hlower⟩
  · rintro ⟨taken, rfl, rfl⟩
    have hlength : (stem ++ taken).length - (lower taken).length = stem.length := by simp [lower]
    rw [stripSuffix?, hlength, List.drop_left, List.take_left, if_pos rfl]

namespace Distribution

variable {filename stem stem' : List Char} {kind kind' : FileKind}

/-- The name of a file of a kind is a stem, a point and an extension of the kind. -/
structure IsNamed (filename stem : List Char) (kind : FileKind) : Prop where
  stem_ne_nil : stem ≠ []
  isOneLine : Text.IsOneLine stem
  exists_extension : ∃ ext, filename = stem ++ '.' :: ext ∧ kind.IsExtension ext

theorem mem_extensions_iff {ext : String} : (ext, kind) ∈ extensions ↔ ext ∈ kind.extensions := by
  cases kind <;> simp [extensions, FileKind.extensions]

/-- No extension is another one with a point and more in front of it. -/
theorem eq_of_suffix {ext ext' : String} (h : (ext, kind) ∈ extensions)
    (h' : (ext', kind') ∈ extensions) (hsuffix : '.' :: ext.toList <:+ '.' :: ext'.toList) :
    ext = ext' ∧ kind = kind' := by
  have hall : ∀ e ∈ extensions, ∀ e' ∈ extensions,
      '.' :: e.1.toList <:+ '.' :: e'.1.toList → e = e' := by decide
  exact Prod.mk.inj (hall _ h _ h' hsuffix)

/-- The extension with its point is the end of the name in small letters. -/
theorem lower_suffix {ext : List Char} :
    '.' :: Text.lower ext <:+ Text.lower (stem ++ '.' :: ext) := by
  rw [Text.lower, Text.lower, List.map_append]
  exact List.suffix_append _ _

/-- **A name comes apart in one way.** -/
theorem IsNamed.unique (h : IsNamed filename stem kind) (h' : IsNamed filename stem' kind') :
    stem = stem' ∧ kind = kind' := by
  obtain ⟨ext, rfl, hext⟩ := h.exists_extension
  obtain ⟨ext', hname, hext'⟩ := h'.exists_extension
  have hmem := mem_extensions_iff.2 hext
  have hmem' := mem_extensions_iff.2 hext'
  have hsuffix : '.' :: Text.lower ext <:+ Text.lower (stem ++ '.' :: ext) := lower_suffix
  have hsuffix' : '.' :: Text.lower ext' <:+ Text.lower (stem ++ '.' :: ext) := by
    rw [hname]
    exact lower_suffix
  -- of two ends of one text the shorter is the end of the longer
  have hsame : Text.lower ext = Text.lower ext' ∧ kind = kind' := by
    rcases List.suffix_or_suffix_of_suffix hsuffix hsuffix' with hle | hle
    · obtain ⟨heq, hkind⟩ := eq_of_suffix hmem hmem' (by simpa using hle)
      exact ⟨String.ofList_injective heq, hkind⟩
    · obtain ⟨heq, hkind⟩ := eq_of_suffix hmem' hmem (by simpa using hle)
      exact ⟨(String.ofList_injective heq).symm, hkind.symm⟩
  have hlength : ext.length = ext'.length := by
    simpa [Text.lower] using congrArg List.length hsame.1
  exact ⟨(List.append_inj' hname (congrArg Nat.succ hlength)).1, hsame.2⟩

theorem isNamed_of_stem? (h : stem? filename = some (stem, kind)) : IsNamed filename stem kind := by
  obtain ⟨⟨ext, kind'⟩, hmem, hread⟩ := List.exists_of_findSome?_eq_some h
  obtain ⟨stem', hstrip, hread⟩ := Option.bind_eq_some_iff.1 hread
  simp only [Option.ite_none_left_eq_some, Bool.or_eq_true, not_or, List.isEmpty_iff,
    Option.some.injEq, Prod.mk.injEq] at hread
  obtain ⟨⟨hne, hline⟩, rfl, rfl⟩ := hread
  obtain ⟨taken, rfl, htaken⟩ := Text.stripSuffix?_eq_some.1 hstrip
  rw [List.any_eq_true] at hline
  cases taken with
  | nil => cases htaken
  | cons c written =>
    obtain ⟨hc, hwritten⟩ := List.cons.inj htaken
    obtain rfl : c = '.' := (Text.toLower_eq_iff (by decide)).1 hc
    refine ⟨hne, fun d hd ↦ ?_, written, rfl, ?_⟩
    · by_contra hend
      exact hline ⟨d, hd, by simpa using hend⟩
    · rw [FileKind.IsExtension, Text.lower, hwritten, String.ofList_toList]
      exact mem_extensions_iff.1 hmem

theorem IsNamed.isSome_stem? (h : IsNamed filename stem kind) : (stem? filename).isSome = true := by
  obtain ⟨ext, rfl, hext⟩ := h.exists_extension
  have hstrip : Text.stripSuffix? ('.' :: Text.lower ext) (stem ++ '.' :: ext) = some stem :=
    Text.stripSuffix?_eq_some.2 ⟨'.' :: ext, rfl, rfl⟩
  have hline : ∀ c ∈ stem, Text.isLineEnd c = false := h.isOneLine
  refine List.findSome?_isSome_iff.2 ⟨_, mem_extensions_iff.2 hext, ?_⟩
  simpa [hstrip, h.stem_ne_nil] using hline

/-- **Stems are found in names that have one, and in no others.** -/
theorem stem?_eq_some_iff : stem? filename = some (stem, kind) ↔ IsNamed filename stem kind := by
  refine ⟨isNamed_of_stem?, fun h ↦ ?_⟩
  obtain ⟨⟨stem', kind'⟩, hread⟩ := Option.isSome_iff_exists.1 h.isSome_stem?
  obtain ⟨rfl, rfl⟩ := h.unique (isNamed_of_stem? hread)
  exact hread

end Distribution

end IndexSnapshot
