import IndexSnapshot.Proofs.Json.Order
import IndexSnapshot.Proofs.Text.Lines

/-!
# Compact texts of objects

The compact text of an object whose members have no parts of their own is a single line without
controls (`isClear_compact`), since a string is written without any, and it is read back with its
members in their places (`parse?_compact`).
-/

namespace IndexSnapshot.Json

open Text (Encoded IsClear isClear_nil isClear_cons isClear_append)

variable {τ : Type} [Encoded τ] {v : Json τ} {ms : List (τ × Json τ)}

/-! ### No controls -/

theorem le_toNat_hexDigit : ∀ n < 16, 32 ≤ (hexDigit n).toNat := by decide

theorem isClear_escape (c : Char) : IsClear (escape c) := by
  unfold escape
  split_ifs with hquote hslash hb ht hn hf hr hc
  · decide
  · decide
  · decide
  · decide
  · decide
  · decide
  · decide
  · have hlt : c.toNat < 32 := hc
    have hfront : IsClear ['\\', 'u', '0', '0'] := by decide
    refine isClear_append.2 ⟨hfront, isClear_cons.2 ⟨le_toNat_hexDigit _ (by omega), ?_⟩⟩
    exact isClear_cons.2 ⟨le_toNat_hexDigit _ (by omega), isClear_nil⟩
  · exact isClear_cons.2 ⟨Nat.le_of_not_lt hc, isClear_nil⟩

theorem isClear_escapePiece (p : Text.Piece) : IsClear (escapePiece p) := by
  cases p with
  | char c => exact isClear_escape c
  | half u =>
    have hlt := u.toNat_lt
    have hfront : IsClear ['\\', 'u'] := by decide
    refine isClear_append.2 ⟨hfront, isClear_cons.2 ⟨le_toNat_hexDigit _ (by omega), ?_⟩⟩
    refine isClear_cons.2 ⟨le_toNat_hexDigit _ (by omega), ?_⟩
    refine isClear_cons.2 ⟨le_toNat_hexDigit _ (by omega), ?_⟩
    exact isClear_cons.2 ⟨le_toNat_hexDigit _ (by omega), isClear_nil⟩

theorem isClear_quote (s : τ) : IsClear (quote s) := by
  have hbody : IsClear ((Text.pieces (Encoded.units s)).flatMap escapePiece) := by
    intro d hd
    obtain ⟨p, -, hd⟩ := List.mem_flatMap.1 hd
    exact isClear_escapePiece p d hd
  exact isClear_cons.2 ⟨by decide, isClear_append.2 ⟨hbody, by decide⟩⟩

theorem DenotesNumber.isClear {cs : List Char} {x : Binary64} (h : DenotesNumber cs x) :
    IsClear cs := by
  intro d hd
  rcases h.isNumberChar_of_mem hd with hdigit | hmark
  · have hcode : 48 ≤ d.toNat := (Text.isDigit_iff.1 hdigit).1
    omega
  · have hmarks : IsClear ['-', '+', '.', 'e', 'E'] := by decide
    exact hmarks d hmark

theorem isClear_compactChars (hv : v.IsScalar = true) (hsound : v.IsSound) :
    IsClear (compactChars v) := by
  have hnull : IsClear "null".toList := by decide
  have hbool : ∀ b : Bool, IsClear (if b then "true" else "false").toList := by decide
  cases v with
  | null => exact hnull
  | bool b => exact hbool b
  | string s => exact isClear_quote s
  | number n =>
    have hnumber : ∀ x, kept? n = some x → IsClear (numeral n) := fun x hkept ↦
      (denotesNumber_numeral (hsound n rfl) hkept).isClear
    cases n with
    | nan => exact hnull
    | infinity => exact hnull
    | negZero => exact hnumber _ rfl
    | finite units => exact hnumber _ rfl
  | array items => cases hv
  | object members => cases hv

theorem isClear_rowsChars (hms : AreRows ms) : IsClear (rowsChars [] [] ms) := by
  have hrow : ∀ m : τ × Json τ, m.2.IsScalar = true ∧ m.2.IsSound →
      IsClear (rowChars [] [] m) := by
    intro m hm
    rw [rowChars, List.nil_append, List.nil_append]
    exact isClear_append.2 ⟨isClear_quote m.1,
      isClear_cons.2 ⟨by decide, isClear_compactChars hm.1 hm.2⟩⟩
  induction ms with
  | nil => exact isClear_nil
  | cons m ms ih =>
    obtain ⟨hm, hms⟩ := List.forall_mem_cons.1 hms
    cases ms with
    | nil => exact hrow m hm
    | cons next ms =>
      rw [rowsChars]
      · exact isClear_append.2 ⟨hrow m hm, isClear_cons.2 ⟨by decide, ih hms⟩⟩
      · exact List.cons_ne_nil next ms

/-! ### Objects -/

theorem compactMembers_eq_rowsChars (ms : List (τ × Json τ)) :
    compactMembers ms = rowsChars [] [] ms := by
  induction ms with
  | nil => rfl
  | cons m ms ih =>
    cases ms with
    | nil => rfl
    | cons next ms =>
      rw [compactMembers, rowsChars, ih, rowChars]
      · simp
      · exact List.cons_ne_nil next ms
      · exact List.cons_ne_nil next ms

theorem toList_compact_object (ms : List (τ × Json τ)) :
    (object ms).compact.toList = '\x7b' :: (rowsChars [] [] ms ++ ['\x7d']) := by
  rw [compact, String.toList_ofList, compactChars, compactMembers_eq_rowsChars]
  rfl

/-- **The compact text of an object has no controls.** -/
theorem isClear_compact (hms : AreRows ms) : IsClear (object ms).compact.toList := by
  rw [toList_compact_object]
  exact isClear_cons.2 ⟨by decide, isClear_append.2 ⟨isClear_rowsChars hms, by decide⟩⟩

variable [DecidableEq τ]

/-- The compact text of an object denotes what is left of it. -/
theorem denotes_compact (hne : ms ≠ []) (hms : AreRows ms) :
    Denotes (object ms).compact.toList (.object (keptMembers ms)) := by
  have hnone : IsBlank [] := List.forall_mem_nil _
  have hrows := denotes_rowsChars hnone hnone hnone hne hms
  rw [List.append_nil] at hrows
  rw [toList_compact_object]
  exact .braces hrows

/-- **An object is read back from its compact text**, its members in their places. -/
theorem parse?_compact (hne : ms ≠ []) (hms : AreRows ms) (hordered : IsOrdered (ms.map Prod.fst)) :
    parse? (object ms).compact τ = some (object (keptMembers ms)) := by
  have hkept : ofPairs (keptMembers ms) = object (keptMembers ms) :=
    ofPairs_of_isOrdered (by rwa [map_fst_keptMembers])
  have hnone : IsBlank [] := List.forall_mem_nil _
  have helement := Denotes.element hnone (.object (denotes_compact hne hms)) hnone
  rw [List.nil_append, List.append_nil, hkept] at helement
  exact parse?_eq_some_iff.2 helement

end IndexSnapshot.Json
