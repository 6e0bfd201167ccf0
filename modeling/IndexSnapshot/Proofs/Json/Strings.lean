import IndexSnapshot.Json.Printer
import IndexSnapshot.Proofs.Json.Grammar
import IndexSnapshot.Proofs.Number.Digits

/-!
# Strings in JSON texts

What is written between quotes denotes the string, whatever units are in it
(`denotesString_escape`): each piece of it is written as itself or as an escape that denotes it
alone.
-/

namespace IndexSnapshot.Json

open Text (Encoded)

variable {body : List Char} {us : Utf16}

theorem hexDigit_spec {d : ℕ} (hd : d < 16) : Number.digitValue? (hexDigit d) = some d :=
  Number.digitValue?_digitChar hd

/-- The four digits of a unit denote it. -/
theorem isUnit_hexDigits (u : UInt16) :
    IsUnit [hexDigit (u.toNat / 4096), hexDigit (u.toNat / 256 % 16), hexDigit (u.toNat / 16 % 16),
      hexDigit (u.toNat % 16)] u where
  length := rfl
  value := by
    have hlt := u.toNat_lt
    have hfirst := hexDigit_spec (show u.toNat / 4096 < 16 by omega)
    have hsecond := hexDigit_spec (show u.toNat / 256 % 16 < 16 by omega)
    have hthird := hexDigit_spec (show u.toNat / 16 % 16 < 16 by omega)
    have hfourth := hexDigit_spec (show u.toNat % 16 < 16 by omega)
    simp only [Number.valueIn?, List.foldlM_cons, List.foldlM_nil, hfirst, hsecond, hthird, hfourth,
      Option.bind_eq_bind, Option.bind_some, Option.pure_def]
    rw [if_pos (by omega), Option.bind_some, if_pos (by omega), Option.bind_some,
      if_pos (by omega), Option.bind_some, if_pos (by omega), Option.bind_some]
    exact congrArg some (by omega)

/-- A character below the space is denoted by its number. -/
theorem denotesString_control {c : Char} (hc : c < ' ') (h : DenotesString body us) :
    DenotesString (['\\', 'u', '0', '0', hexDigit (c.toNat / 16), hexDigit (c.toNat % 16)] ++ body)
      (Text.charUnits c ++ us) := by
  have hlt : c.toNat < 32 := hc
  have hu : (UInt16.ofNat c.toNat).toNat = c.toNat := Text.toNat_ofNat_of_lt (by omega)
  have hunit := isUnit_hexDigits (.ofNat c.toNat)
  have hfirst : c.toNat / 4096 = 0 := by omega
  have hsecond : c.toNat / 256 % 16 = 0 := by omega
  have hthird : c.toNat / 16 % 16 = c.toNat / 16 := by omega
  rw [hu, hfirst, hsecond, hthird] at hunit
  rw [Text.charUnits, if_pos (by omega)]
  exact .numbered hunit h

/-- A character as it is written denotes itself. -/
theorem denotesString_escape_append (c : Char) (h : DenotesString body us) :
    DenotesString (escape c ++ body) (Text.charUnits c ++ us) := by
  unfold escape
  split_ifs with hquote hslash hb ht hn hf hr hc
  · subst hquote
    exact .short rfl h
  · subst hslash
    exact .short rfl h
  · subst hb
    exact .short rfl h
  · subst ht
    exact .short rfl h
  · subst hn
    exact .short rfl h
  · subst hf
    exact .short rfl h
  · subst hr
    exact .short rfl h
  · exact denotesString_control hc h
  · exact .plain hquote hslash hc h

/-- Pieces as they are written denote their units. -/
theorem denotesString_flatMap_escapePiece (ps : List Text.Piece) :
    DenotesString (ps.flatMap escapePiece) (ps.flatMap Text.Piece.units) := by
  induction ps with
  | nil => exact .nil
  | cons p ps ih =>
    rw [List.flatMap_cons, List.flatMap_cons]
    cases p with
    | char c => exact denotesString_escape_append c ih
    | half u => exact .numbered (isUnit_hexDigits u) ih

/-- **What is written between quotes denotes the string.** -/
theorem denotesString_escape {τ : Type} [Encoded τ] (s : τ) :
    DenotesString ((Text.pieces (Encoded.units s)).flatMap escapePiece) (Encoded.units s) := by
  have hdenotes := denotesString_flatMap_escapePiece (Text.pieces (Encoded.units s))
  rwa [Text.flatMap_units_pieces] at hdenotes

end IndexSnapshot.Json
