/-!
# Strings of 16-bit units

Strings are held in 16-bit units: a character is one unit or, beyond the basic plane, a surrogate
pair. In a text the halves of pairs stand together. In a string of units half of a pair may also
stand alone, and then the string is no text.
-/

namespace IndexSnapshot

/-- A string of 16-bit units. -/
abbrev Utf16 := List UInt16

namespace Text

/-- The unit opens a surrogate pair. -/
def isHighSurrogate (u : UInt16) : Bool := 0xd800 ≤ u.toNat && u.toNat ≤ 0xdbff

/-- The unit closes a surrogate pair. -/
def isLowSurrogate (u : UInt16) : Bool := 0xdc00 ≤ u.toNat && u.toNat ≤ 0xdfff

/-- The 16-bit units of a character: its number or, beyond the basic plane, a surrogate pair. -/
def charUnits (c : Char) : Utf16 :=
  if c.toNat < 0x10000 then [.ofNat c.toNat]
  else
    [.ofNat (0xd800 + (c.toNat - 0x10000) / 0x400), .ofNat (0xdc00 + (c.toNat - 0x10000) % 0x400)]

/-- The 16-bit units of a text. -/
def utf16 (cs : List Char) : Utf16 := cs.flatMap charUnits

/-- The character of a surrogate pair. -/
def paired (high low : UInt16) : Char :=
  Char.ofNat (0x10000 + (high.toNat - 0xd800) * 0x400 + (low.toNat - 0xdc00))

/-- A piece of a string of units: a character, or half of a surrogate pair that stands alone. -/
inductive Piece where
  | char (c : Char)
  | half (u : UInt16)
  deriving DecidableEq, Repr

namespace Piece

/-- The piece that a unit is alone. -/
def ofUnit (u : UInt16) : Piece :=
  if isHighSurrogate u || isLowSurrogate u then half u else char (Char.ofNat u.toNat)

/-- The units of a piece. -/
def units : Piece → Utf16
  | char c => charUnits c
  | half u => [u]

/-- The character that a piece is, when it is one. -/
def char? : Piece → Option Char
  | char c => some c
  | half _ => none

/-- The character that is shown for a piece; half of a pair is shown as the replacement
character. -/
def shown : Piece → Char
  | char c => c
  | half _ => '\ufffd'

end Piece

/-- The pieces of a string of units. A high surrogate and a low one right behind it make one
character. -/
def pieces : Utf16 → List Piece
  | [] => []
  | [u] => [.ofUnit u]
  | u :: v :: us =>
    if isHighSurrogate u && isLowSurrogate v then .char (paired u v) :: pieces us
    else .ofUnit u :: pieces (v :: us)

/-- The text that a string of units is, when it is one. -/
def text? (us : Utf16) : Option String := ((pieces us).mapM Piece.char?).map String.ofList

/-- The text that is shown for a string of units. -/
def shown (us : Utf16) : String := String.ofList ((pieces us).map Piece.shown)

/-! ### Characters and their units -/

theorem toNat_ofNat_of_lt {n : Nat} (h : n < 0x10000) : (UInt16.ofNat n).toNat = n :=
  Nat.mod_eq_of_lt h

theorem char_toNat_ofNat {n : Nat} (h : n < 0xd800 ∨ 0xdfff < n ∧ n < 0x110000) :
    (Char.ofNat n).toNat = n := by
  rw [Char.ofNat, dif_pos h]
  rfl

/-- The units of a character are no half of a pair, or both halves of one. -/
theorem charUnits_cases (c : Char) :
    (∃ u, charUnits c = [u] ∧ Piece.ofUnit u = .char c) ∨
      ∃ u v, charUnits c = [u, v] ∧ isHighSurrogate u = true ∧ isLowSurrogate v = true ∧
        paired u v = c := by
  have hc : c.toNat < 0xd800 ∨ 0xdfff < c.toNat ∧ c.toNat < 0x110000 := c.valid
  unfold charUnits
  split
  · have hu : (UInt16.ofNat c.toNat).toNat = c.toNat := toNat_ofNat_of_lt ‹_›
    refine .inl ⟨_, rfl, ?_⟩
    have hhalf : (isHighSurrogate (.ofNat c.toNat) || isLowSurrogate (.ofNat c.toNat)) = false := by
      simp only [isHighSurrogate, isLowSurrogate, hu, Bool.or_eq_false_iff, Bool.and_eq_false_iff,
        decide_eq_false_iff_not]
      omega
    rw [Piece.ofUnit, hhalf, hu, Char.ofNat_toNat]
    rfl
  · have hu : (UInt16.ofNat (0xd800 + (c.toNat - 0x10000) / 0x400)).toNat =
        0xd800 + (c.toNat - 0x10000) / 0x400 := toNat_ofNat_of_lt (by omega)
    have hv : (UInt16.ofNat (0xdc00 + (c.toNat - 0x10000) % 0x400)).toNat =
        0xdc00 + (c.toNat - 0x10000) % 0x400 := toNat_ofNat_of_lt (by omega)
    refine .inr ⟨_, _, rfl, ?_, ?_, ?_⟩
    · simp only [isHighSurrogate, hu, Bool.and_eq_true, decide_eq_true_iff]
      omega
    · simp only [isLowSurrogate, hv, Bool.and_eq_true, decide_eq_true_iff]
      omega
    · have hnat : 0x10000 + (0xd800 + (c.toNat - 0x10000) / 0x400 - 0xd800) * 0x400 +
          (0xdc00 + (c.toNat - 0x10000) % 0x400 - 0xdc00) = c.toNat := by omega
      rw [paired, hu, hv, hnat, Char.ofNat_toNat]

/-- A unit is what it is read as alone. -/
theorem Piece.units_ofUnit (u : UInt16) : (ofUnit u).units = [u] := by
  unfold ofUnit
  split
  · rfl
  · rename_i hhalf
    have hlt := u.toNat_lt
    simp only [isHighSurrogate, isLowSurrogate, Bool.or_eq_true, Bool.and_eq_true,
      decide_eq_true_iff] at hhalf
    have hnat : (Char.ofNat u.toNat).toNat = u.toNat := char_toNat_ofNat (by omega)
    rw [units, charUnits, hnat, if_pos (by omega), UInt16.ofNat_toNat]

theorem charUnits_paired {u v : UInt16} (hu : isHighSurrogate u = true)
    (hv : isLowSurrogate v = true) : charUnits (paired u v) = [u, v] := by
  simp only [isHighSurrogate, isLowSurrogate, Bool.and_eq_true, decide_eq_true_iff] at hu hv
  have hnat : (paired u v).toNat =
      0x10000 + (u.toNat - 0xd800) * 0x400 + (v.toNat - 0xdc00) := char_toNat_ofNat (by omega)
  have hhigh : 0xd800 + (0x10000 + (u.toNat - 0xd800) * 0x400 + (v.toNat - 0xdc00) - 0x10000) /
      0x400 = u.toNat := by omega
  have hlow : 0xdc00 + (0x10000 + (u.toNat - 0xd800) * 0x400 + (v.toNat - 0xdc00) - 0x10000) %
      0x400 = v.toNat := by omega
  rw [charUnits, hnat, if_neg (by omega), hhigh, hlow, UInt16.ofNat_toNat, UInt16.ofNat_toNat]

/-! ### Strings and their pieces -/

/-- **Nothing of a string is lost in its pieces.** -/
theorem flatMap_units_pieces (us : Utf16) : (pieces us).flatMap Piece.units = us := by
  fun_induction pieces us with
  | case1 => rfl
  | case2 u => simp [Piece.units_ofUnit]
  | case3 u v us hpair ih =>
    obtain ⟨hu, hv⟩ := Bool.and_eq_true_iff.1 hpair
    rw [List.flatMap_cons, ih, Piece.units, charUnits_paired hu hv]
    rfl
  | case4 u v us _ ih =>
    rw [List.flatMap_cons, ih, Piece.units_ofUnit]
    rfl

/-- A unit that opens no pair is a piece of its own. -/
theorem pieces_cons {u : UInt16} (hu : isHighSurrogate u = false) (us : Utf16) :
    pieces (u :: us) = .ofUnit u :: pieces us := by
  cases us with
  | nil => rfl
  | cons v us => rw [pieces, hu, Bool.false_and, if_neg Bool.false_ne_true]

theorem pieces_pair {u v : UInt16} (hu : isHighSurrogate u = true) (hv : isLowSurrogate v = true)
    (us : Utf16) : pieces (u :: v :: us) = .char (paired u v) :: pieces us := by
  rw [pieces, hu, hv, Bool.true_and, if_pos rfl]

/-- A character at the front of a string is its first piece. -/
theorem pieces_charUnits_append (c : Char) (us : Utf16) :
    pieces (charUnits c ++ us) = .char c :: pieces us := by
  rcases charUnits_cases c with ⟨u, hunits, hu⟩ | ⟨u, v, hunits, hu, hv, hc⟩
  · have hhigh : isHighSurrogate u = false := by
      unfold Piece.ofUnit at hu
      split at hu
      · cases hu
      · simp_all
    rw [hunits, List.singleton_append, pieces_cons hhigh, hu]
  · rw [hunits, List.cons_append, List.singleton_append, pieces_pair hu hv, hc]

/-- **The pieces of a text are its characters.** -/
theorem pieces_utf16 (cs : List Char) : pieces (utf16 cs) = cs.map .char := by
  induction cs with
  | nil => rfl
  | cons c cs ih =>
    have hunits : utf16 (c :: cs) = charUnits c ++ utf16 cs := List.flatMap_cons
    rw [hunits, pieces_charUnits_append, ih, List.map_cons]

theorem mapM_char?_eq_some_iff {ps : List Piece} {cs : List Char} :
    ps.mapM Piece.char? = some cs ↔ ps = cs.map .char := by
  induction ps generalizing cs with
  | nil => cases cs <;> simp
  | cons p ps ih =>
    cases p with
    | half u => cases cs <;> simp [Piece.char?]
    | char c =>
      have hcons : (Piece.char c :: ps).mapM Piece.char? =
          (ps.mapM Piece.char?).bind fun cs ↦ some (c :: cs) := List.mapM_cons
      rw [hcons, Option.bind_eq_some_iff]
      constructor
      · rintro ⟨cs, hcs, ⟨⟩⟩
        rw [ih.1 hcs, List.map_cons]
      · intro h
        cases cs with
        | nil => cases h
        | cons d cs =>
          obtain ⟨hhead, htail⟩ := List.cons.inj h
          exact ⟨cs, ih.2 htail, by rw [Piece.char.inj hhead]⟩

/-- **A string is a text exactly if it has the units of one.** -/
theorem text?_eq_some_iff {us : Utf16} {s : String} :
    text? us = some s ↔ utf16 s.toList = us := by
  rw [text?, Option.map_eq_some_iff]
  constructor
  · rintro ⟨cs, hcs, rfl⟩
    have hpieces := flatMap_units_pieces us
    rw [mapM_char?_eq_some_iff.1 hcs, List.flatMap_map] at hpieces
    rw [String.toList_ofList]
    exact hpieces
  · rintro rfl
    exact ⟨s.toList, mapM_char?_eq_some_iff.2 (pieces_utf16 _), String.ofList_toList⟩

/-- A text is shown as it is. -/
theorem shown_utf16 (s : String) : shown (utf16 s.toList) = s := by
  have hshown : (s.toList.map Piece.char).map Piece.shown = s.toList := by
    rw [List.map_map]
    exact List.map_id _
  rw [shown, pieces_utf16, hshown, String.ofList_toList]

/-- A type of strings: each of its values is encoded in 16-bit units in a way of its own, and all
texts are among them. -/
class Encoded (τ : Type) where
  units : τ → Utf16
  /-- The value that units encode, when there is one. -/
  ofUnits? : Utf16 → Option τ
  ofUnits?_eq_some_iff {us : Utf16} {t : τ} : ofUnits? us = some t ↔ units t = us
  ofString : String → τ
  units_ofString (s : String) : units (ofString s) = utf16 s.toList

instance : Encoded String where
  units s := utf16 s.toList
  ofUnits? := text?
  ofUnits?_eq_some_iff := text?_eq_some_iff
  ofString s := s
  units_ofString _ := rfl

instance : Encoded Utf16 where
  units us := us
  ofUnits? := some
  ofUnits?_eq_some_iff := Option.some_inj.trans eq_comm
  ofString s := utf16 s.toList
  units_ofString _ := rfl

namespace Encoded

variable {τ : Type} [Encoded τ] {t t' : τ}

theorem ofUnits?_units (t : τ) : ofUnits? (units t) = some t := ofUnits?_eq_some_iff.2 rfl

theorem units_inj : units t = units t' ↔ t = t' := by
  rw [← ofUnits?_eq_some_iff, ofUnits?_units, Option.some_inj, eq_comm]

/-- Different texts are different strings. -/
theorem ofString_inj {s s' : String} : (ofString s : τ) = ofString s' ↔ s = s' := by
  rw [← units_inj, units_ofString, units_ofString, ← text?_eq_some_iff, text?_eq_some_iff.2 rfl,
    Option.some_inj, eq_comm]

end Encoded

end Text

end IndexSnapshot
