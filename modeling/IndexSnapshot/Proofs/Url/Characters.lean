import IndexSnapshot.Proofs.Url.Percent
import IndexSnapshot.Url.Printer

/-!
# Characters of written locators

What a locator of a web page is written with: no controls, no spaces, and no mark of a query or a
fragment before these begin (`isPlain`); in its owner, that is in user information, host and port,
no slash of either kind either (`isOwn`). The reason is the same for all parts. Percent encoding
leaves what its set allows, together with percent signs and hexadecimal digits, and hosts are made
of what a domain may hold, of digits, points and colons.
-/

namespace IndexSnapshot.Url

open Text (isAlphanum_iff)

/-- A character that is neither a control nor a space, and begins neither query nor fragment. -/
def isPlain (c : Char) : Bool := ' ' < c && c ≠ '#' && c ≠ '?'

/-- A plain character that is no slash. -/
def isOwn (c : Char) : Bool := isPlain c && c ≠ '/' && c ≠ '\\'

variable {c : Char}

theorem space_lt_iff : ' ' < c ↔ 32 < c.toNat := Iff.rfl

theorem isPlain_iff : isPlain c = true ↔ 32 < c.toNat ∧ c.toNat ≠ 35 ∧ c.toNat ≠ 63 := by
  simp [isPlain, space_lt_iff, ← Char.toNat_inj, and_assoc]

theorem of_isPlain (h : isPlain c = true) : ' ' < c ∧ c ≠ '#' ∧ c ≠ '?' := by
  simpa [isPlain, and_assoc] using h

theorem isOwn_iff : isOwn c = true ↔
    isPlain c = true ∧ c.toNat ≠ 47 ∧ c.toNat ≠ 92 := by
  simp [isOwn, ← Char.toNat_inj, and_assoc]

theorem isPlain_of_isOwn (h : isOwn c = true) : isPlain c = true := (isOwn_iff.1 h).1

theorem isOwn_of_isAlphanum (h : c.isAlphanum = true) : isOwn c = true := by
  rw [isAlphanum_iff] at h
  rw [isOwn_iff, isPlain_iff]
  omega

theorem isOwn_of_not_inUserinfo (h : Percent.inUserinfo c = false) : isOwn c = true := by
  simp only [Percent.inUserinfo, Percent.inPath, Percent.inQuery, Percent.isControl,
    Bool.or_eq_false_iff, decide_eq_false_iff_not, ← Char.toNat_inj, Char.lt_def,
    UInt32.lt_iff_toNat_lt, Char.toNat_val, Char.reduceToNat] at h
  rw [isOwn_iff, isPlain_iff]
  omega

/-- What is left when controls are encoded and neither a query nor a fragment begins. -/
theorem isPlain_of_not_isControl (h : Percent.isControl c = false ∧ c ≠ '#' ∧ c ≠ '?') :
    c = ' ' ∨ isPlain c = true := by
  simp only [Percent.isControl, Bool.or_eq_false_iff, decide_eq_false_iff_not, ne_eq,
    ← Char.toNat_inj, Char.lt_def, UInt32.lt_iff_toNat_lt, Char.toNat_val, Char.reduceToNat,
    isPlain_iff] at h ⊢
  omega

theorem isPlain_of_not_inPath (h : Percent.inPath c = false) : isPlain c = true := by
  simp only [Percent.inPath, Percent.inQuery, Percent.isControl,
    Bool.or_eq_false_iff, decide_eq_false_iff_not, ← Char.toNat_inj, Char.lt_def,
    UInt32.lt_iff_toNat_lt, Char.toNat_val, Char.reduceToNat] at h
  rw [isPlain_iff]
  omega

end IndexSnapshot.Url
