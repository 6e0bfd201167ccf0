import IndexSnapshot.Proofs.Text.Letters
import IndexSnapshot.Proofs.Text.Split
import IndexSnapshot.Url.Domain

/-!
# ASCII forms of domain names

The ASCII form of a domain name is ASCII indeed (`isAsciiText_of_toAscii?`), and a name that is
ASCII already only has its letters made small (`eq_lower_of_toAscii?`). It may have no ASCII form at
all, for its labels may pretend to be encoded, but not without the characters of their mark
(`toAscii?_of_not_mem`).
-/

namespace IndexSnapshot.Domain

namespace Punycode

theorem isAscii_digit {n : ℕ} (h : n < 36) : isAscii (digit n) = true := by
  have hall : ∀ n < 36, isAscii (digit n) = true := by decide
  exact hall n h

theorem isAscii_of_mem_digits {bias place n : ℕ} {c : Char} (h : c ∈ digits bias place n) :
    isAscii c = true := by
  fun_induction digits bias place n with
  | case1 place n t hlt =>
    have ht := threshold_le bias place
    rw [List.mem_singleton.1 h]
    exact isAscii_digit (by omega)
  | case2 place n t hge ih =>
    have ht := threshold_le bias place
    rcases List.mem_cons.1 h with rfl | h
    · have hbase : base = 36 := rfl
      have hmod := Nat.mod_lt (n - t) (show 0 < base - t by omega)
      exact isAscii_digit (by omega)
    · exact ih h

/-- Nothing but ASCII has been written. -/
def IsAsciiWriting (w : Writing) : Prop := ∀ c ∈ w.written, isAscii c = true

theorem IsAsciiWriting.pass {w : Writing} (h : IsAsciiWriting w) (ascii code : ℕ) (c : Char) :
    IsAsciiWriting (pass ascii code w c) := by
  unfold Punycode.pass
  split_ifs
  · exact h
  · intro d hd
    rcases List.mem_append.1 hd with hd | hd
    · exact h d hd
    · exact isAscii_of_mem_digits hd
  · exact h

theorem IsAsciiWriting.foldl_pass {w : Writing} (h : IsAsciiWriting w) (ascii code : ℕ)
    (label : List Char) : IsAsciiWriting (label.foldl (Punycode.pass ascii code) w) := by
  induction label generalizing w with
  | nil => exact h
  | cons c label ih => exact ih (h.pass ascii code c)

theorem IsAsciiWriting.putIn {w : Writing} (h : IsAsciiWriting w) (label : List Char)
    (ascii next : ℕ) (codes : List ℕ) : IsAsciiWriting (putIn label ascii next w codes) := by
  induction codes generalizing w next with
  | nil => exact h
  | cons code codes ih =>
    have hstart :
        IsAsciiWriting { w with passed := w.passed + (code - next) * (w.letters + 1) } := h
    have hstep := hstart.foldl_pass ascii code label
    rw [Punycode.putIn]
    refine ih ?_ (code + 1)
    exact hstep

theorem isAscii_of_mem_encode {label : List Char} {c : Char} (h : c ∈ encode label) :
    isAscii c = true := by
  -- what is written before the first code is put in are the ASCII characters of the label
  have hstart : IsAsciiWriting ⟨if (label.filter isAscii).isEmpty then []
      else label.filter isAscii ++ ['-'], 0, 72, (label.filter isAscii).length⟩ := by
    intro d hd
    dsimp only at hd
    split at hd
    · exact absurd hd List.not_mem_nil
    · rcases List.mem_append.1 hd with hd | hd
      · exact (List.mem_filter.1 hd).2
      · rw [List.mem_singleton.1 hd]
        rfl
  exact hstart.putIn label _ 128 (codes label) c h

end Punycode

variable {name label out : List Char}

theorem isAsciiText_iff : isAsciiText name = true ↔ ∀ c ∈ name, Punycode.isAscii c = true :=
  List.all_eq_true

theorem isAscii_of_mem_lower (hname : isAsciiText name = true) {c : Char}
    (hc : c ∈ Text.lower name) : Punycode.isAscii c = true := by
  obtain ⟨d, hd, rfl⟩ := List.mem_map.1 hc
  have hd := of_decide_eq_true (isAsciiText_iff.1 hname d hd)
  rw [Punycode.isAscii, decide_eq_true_iff, Text.toNat_toLower]
  split_ifs <;> omega

theorem isAsciiText_of_labelToAscii? (h : labelToAscii? label = some out) :
    isAsciiText out = true := by
  unfold labelToAscii? at h
  split at h
  · split at h
    · rename_i hascii
      cases h
      rw [Bool.and_eq_true] at hascii
      exact hascii.1
    · cases h
  · split at h
    · rename_i hascii
      cases h
      exact hascii
    · split at h
      · cases h
        rw [isAsciiText_iff]
        intro c hc
        rcases List.mem_append.1 hc with hc | hc
        · exact List.all_eq_true.1 (show asciiMark.all Punycode.isAscii = true by decide) c hc
        · exact Punycode.isAscii_of_mem_encode hc
      · cases h

/-- An ASCII label is kept, if it may be written. -/
theorem eq_of_labelToAscii? (hlabel : isAsciiText label = true)
    (h : labelToAscii? label = some out) : out = label := by
  unfold labelToAscii? at h
  rw [hlabel] at h
  split at h
  · split at h
    · cases h
      rfl
    · cases h
  · cases h
    rfl

/-- **An ASCII form is ASCII.** -/
theorem isAsciiText_of_toAscii? (h : toAscii? name = some out) : isAsciiText out = true := by
  obtain ⟨prepared, -, h⟩ := Option.bind_eq_some_iff.1 h
  obtain ⟨labels, hlabels, h⟩ := Option.bind_eq_some_iff.1 h
  cases h
  have hall := Text.forall_mem_of_mapM (P := fun label ↦ isAsciiText label = true)
    (fun _ _ ↦ isAsciiText_of_labelToAscii?) hlabels
  rw [isAsciiText_iff]
  intro c hc
  rcases Text.of_mem_intercalate hc with rfl | ⟨label, hlabel, hc⟩
  · rfl
  · exact isAsciiText_iff.1 (hall label hlabel) c hc

/-- **A name in ASCII** only has its letters made small. -/
theorem eq_lower_of_toAscii? (hname : isAsciiText name = true) (h : toAscii? name = some out) :
    out = Text.lower name := by
  obtain ⟨prepared, hprepared, h⟩ := Option.bind_eq_some_iff.1 h
  obtain ⟨labels, hlabels, h⟩ := Option.bind_eq_some_iff.1 h
  cases h
  rw [prepare?, if_pos hname] at hprepared
  cases hprepared
  have hsame : labels = Text.splitAtMarks (· = '.') (Text.lower name) := by
    refine Text.eq_of_mapM hlabels fun label hlabel out hout ↦ eq_of_labelToAscii? ?_ hout
    exact isAsciiText_iff.2 fun c hc ↦
      isAscii_of_mem_lower hname (Text.of_mem_splitAtMarks hlabel hc).1
  rw [hsame, Text.intercalate_splitAtMarks]

/-- A name in ASCII that lacks one of the characters that labels are marked with has an ASCII
form. -/
theorem toAscii?_of_not_mem (hname : isAsciiText name = true) {mark : Char}
    (hmark : mark ∈ asciiMark) (hlacks : mark ∉ Text.lower name) :
    toAscii? name = some (Text.lower name) := by
  have hlabels : (Text.splitAtMarks (· = '.') (Text.lower name)).mapM labelToAscii? =
      some (Text.splitAtMarks (· = '.') (Text.lower name)) := by
    refine Text.mapM_of_forall fun label hlabel ↦ ?_
    have hmem : ∀ c ∈ label, c ∈ Text.lower name := fun c hc ↦
      (Text.of_mem_splitAtMarks hlabel hc).1
    have hstrip : Text.strip? asciiMark label = none := by
      rw [Option.eq_none_iff_forall_ne_some]
      intro rest hrest
      rw [Text.strip?_eq_some] at hrest
      exact hlacks (hmem mark (hrest ▸ List.mem_append_left rest hmark))
    have hascii : isAsciiText label = true :=
      isAsciiText_iff.2 fun c hc ↦ isAscii_of_mem_lower hname (hmem c hc)
    rw [labelToAscii?, hstrip]
    exact if_pos hascii
  rw [toAscii?, prepare?, if_pos hname]
  show ((Text.splitAtMarks _ _).mapM labelToAscii?).bind _ = _
  rw [hlabels]
  exact congrArg some (Text.intercalate_splitAtMarks '.' (Text.lower name))

end IndexSnapshot.Domain
