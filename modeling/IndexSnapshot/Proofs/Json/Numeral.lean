import IndexSnapshot.Json.Printer
import IndexSnapshot.Proofs.Json.Grammar
import IndexSnapshot.Proofs.Number.Shortest
import Mathlib.Data.List.TakeWhile

/-!
# Numbers in JSON texts

The shortest decimal of a number is written in one of four ways: whole, with a point inside, with
zeros behind the point, or with an exponent. In each of them it is a numeral of JSON that denotes
the same decimal, so that the text of a number denotes the number (`denotesNumber_numeral`). Only
the sign of a zero is lost.
-/

namespace IndexSnapshot.Json

open Magnitude (digitsValue)
open Binary64 (one)

variable {ds : List Char}

/-! ### Decimals as they are spelt -/

/-- A decimal as it is spelt: digits before the point, digits behind it, and an exponent. -/
structure Spelling where
  whole : List Char
  fraction : List Char
  exponent : Option ℤ

namespace Spelling

/-- The exponent with its sign. -/
def exponentChars (e : ℤ) : List Char :=
  'e' :: (if e < 0 then '-' else '+') :: Nat.toDigits 10 e.natAbs

/-- What stands behind the digits before the point. -/
def behind (p : Spelling) : List Char :=
  (if p.fraction = [] then [] else '.' :: p.fraction) ++ p.exponent.elim [] exponentChars

/-- The text of a decimal. -/
def chars (p : Spelling) : List Char := p.whole ++ p.behind

/-- The digits of the decimal, as one number. -/
def digits (p : Spelling) : ℕ := digitsValue (p.whole ++ p.fraction)

/-- The place of the last digit. -/
def place (p : Spelling) : ℤ := p.exponent.getD 0 - p.fraction.length

/-- The decimal is spelt as numerals are. -/
structure IsValid (p : Spelling) : Prop where
  whole : IsWhole p.whole
  fraction : ∀ c ∈ p.fraction, c.isDigit = true

theorem denotesExponent_exponentChars (e : ℤ) : DenotesExponent (exponentChars e) e := by
  have hdigits : IsDigits (Nat.toDigits 10 e.natAbs) :=
    ⟨fun c hc ↦ Nat.isDigit_of_mem_toDigits (by decide) (by decide) hc, Nat.toDigits_ne_nil⟩
  have hvalue := Number.digitsValue_toDigits e.natAbs
  rw [exponentChars]
  split_ifs with hsign
  · have hminus := DenotesExponent.minus (.inl rfl) hdigits
    rwa [hvalue, show -(e.natAbs : ℤ) = e by omega] at hminus
  · have hplus := DenotesExponent.plus (.inl rfl) hdigits
    rwa [hvalue, show (e.natAbs : ℤ) = e by omega] at hplus

variable {p : Spelling}

theorem denotesExponent_elim :
    DenotesExponent (p.exponent.elim [] exponentChars) (p.exponent.getD 0) := by
  cases p.exponent with
  | none => exact .none
  | some e => exact denotesExponent_exponentChars e

theorem IsValid.denotesFraction (hp : p.IsValid) :
    DenotesFraction (if p.fraction = [] then [] else '.' :: p.fraction) p.fraction := by
  split_ifs with hne
  · rw [hne]
    exact .none
  · exact .point ⟨hp.fraction, hne⟩

/-- **A decimal denotes the number that it spells**, with a sign or without. -/
theorem IsValid.denotesNumber (hp : p.IsValid) :
    DenotesNumber p.chars (.ofDecimal false p.digits p.place) ∧
      DenotesNumber ('-' :: p.chars) (.ofDecimal true p.digits p.place) :=
  ⟨.positive hp.whole hp.denotesFraction denotesExponent_elim,
    .negative hp.whole hp.denotesFraction denotesExponent_elim⟩

end Spelling

/-! ### The layout of shortest decimals -/

/-- The digits of a number other than zero, without zeros in front. -/
structure IsLeading (ds : List Char) : Prop where
  digits : ∀ c ∈ ds, c.isDigit = true
  head : ∃ d tail, ds = d :: tail ∧ d ≠ '0'

theorem digitsValue_replicate_append (zeros : ℕ) (ds : List Char) :
    digitsValue (List.replicate zeros '0' ++ ds) = digitsValue ds := by
  induction zeros with
  | zero => rfl
  | succ zeros ih => exact ih

theorem digitsValue_append_replicate (ds : List Char) (zeros : ℕ) :
    digitsValue (ds ++ List.replicate zeros '0') = digitsValue ds * 10 ^ zeros := by
  induction zeros with
  | zero => simp
  | succ zeros ih =>
    rw [List.replicate_succ', ← List.append_assoc, Number.digitsValue_concat, ih, Nat.pow_succ]
    show 10 * _ + 0 = _
    ring

theorem isDigit_of_mem_replicate {zeros : ℕ} {c : Char} (h : c ∈ List.replicate zeros '0') :
    c.isDigit = true := by
  rw [List.eq_of_mem_replicate h]
  decide

/-- The text spells the number, as numerals do. -/
def Spells (text : List Char) (x : ℚ) : Prop :=
  ∃ p : Spelling, p.IsValid ∧ text = p.chars ∧ (p.digits : ℚ) * 10 ^ p.place = x

/-- Zeros stand behind the digits. -/
theorem spells_append_replicate (hds : IsLeading ds) (zeros : ℕ) :
    Spells (ds ++ List.replicate zeros '0') (digitsValue ds * 10 ^ zeros) := by
  obtain ⟨hall, d, tail, rfl, hd⟩ := hds
  refine ⟨⟨(d :: tail) ++ List.replicate zeros '0', [], none⟩,
    ⟨.inr ⟨fun c hc ↦ ?_, d, _, rfl, hd⟩, fun c hc ↦ absurd hc List.not_mem_nil⟩, ?_, ?_⟩
  · rcases List.mem_append.1 hc with hc | hc
    · exact hall c hc
    · exact isDigit_of_mem_replicate hc
  · simp [Spelling.chars, Spelling.behind]
  · simp only [Spelling.digits, Spelling.place, List.append_nil, digitsValue_append_replicate]
    simp

/-- The point stands inside the digits. -/
theorem spells_take_drop (hds : IsLeading ds) {places : ℕ} (hpos : 0 < places)
    (hlt : places < ds.length) :
    Spells (ds.take places ++ '.' :: ds.drop places)
      (digitsValue ds * 10 ^ ((places : ℤ) - ds.length)) := by
  obtain ⟨hall, d, tail, rfl, hd⟩ := hds
  obtain ⟨before, rfl⟩ := Nat.exists_eq_add_one_of_ne_zero hpos.ne'
  have hne : (d :: tail).drop (before + 1) ≠ [] := by
    rw [Ne, List.drop_eq_nil_iff]
    omega
  refine ⟨⟨(d :: tail).take (before + 1), (d :: tail).drop (before + 1), none⟩,
    ⟨.inr ⟨fun c hc ↦ hall c (List.mem_of_mem_take hc), d, tail.take before, rfl, hd⟩,
      fun c hc ↦ hall c (List.mem_of_mem_drop hc)⟩, ?_, ?_⟩
  · rw [Spelling.chars, Spelling.behind, if_neg hne]
    simp
  · simp only [Spelling.digits, Spelling.place, List.take_append_drop, List.length_drop]
    congr 2
    simp only [Option.getD_none]
    omega

/-- Zeros stand between the point and the digits. -/
theorem spells_zero_point (hds : IsLeading ds) (zeros : ℕ) :
    Spells ('0' :: '.' :: List.replicate zeros '0' ++ ds)
      (digitsValue ds * 10 ^ (-(zeros : ℤ) - ds.length)) := by
  obtain ⟨hall, d, tail, rfl, hd⟩ := hds
  refine ⟨⟨['0'], List.replicate zeros '0' ++ d :: tail, none⟩, ⟨.inl rfl, fun c hc ↦ ?_⟩, ?_, ?_⟩
  · rcases List.mem_append.1 hc with hc | hc
    · exact isDigit_of_mem_replicate hc
    · exact hall c hc
  · rw [Spelling.chars, Spelling.behind, if_neg (by simp)]
    simp
  · have hvalue : digitsValue (['0'] ++ (List.replicate zeros '0' ++ d :: tail)) =
        digitsValue (d :: tail) := digitsValue_replicate_append zeros _
    simp only [Spelling.digits, Spelling.place, hvalue]
    congr 2
    simp only [Option.getD_none, List.length_append, List.length_replicate]
    omega

/-- An exponent is written, and a point if there are more digits than one. -/
theorem spells_exponent {d : Char} {tail : List Char} (hds : IsLeading (d :: tail)) (e : ℤ) :
    Spells (d :: ((if tail = [] then [] else '.' :: tail) ++ Spelling.exponentChars e))
      (digitsValue (d :: tail) * 10 ^ (e - tail.length)) := by
  obtain ⟨hall, d', tail', heq, hd⟩ := hds
  cases heq
  refine ⟨⟨[d], tail, some e⟩, ⟨.inr ⟨fun c hc ↦ hall c ?_, d, [], rfl, hd⟩,
    fun c hc ↦ hall c (List.mem_cons_of_mem d hc)⟩, rfl, rfl⟩
  rw [List.mem_singleton.1 hc]
  exact List.mem_cons_self

/-- **However a decimal is laid out, it is spelt as numerals are**, and keeps its value. -/
theorem spells_layout (hds : IsLeading ds) (n : ℤ) :
    Spells (Number.layout ds n).toList (digitsValue ds * 10 ^ (n - ds.length)) := by
  simp only [Number.layout]
  by_cases hwhole : (ds.length : ℤ) ≤ n ∧ n ≤ 21
  · obtain ⟨zeros, hzeros⟩ := Int.eq_ofNat_of_zero_le (show 0 ≤ n - (ds.length : ℤ) by omega)
    rw [if_pos hwhole, String.toList_ofList, hzeros, zpow_natCast]
    exact spells_append_replicate hds zeros
  rw [if_neg hwhole]
  by_cases hpoint : 0 < n ∧ n ≤ 21
  · obtain ⟨places, rfl⟩ := Int.eq_ofNat_of_zero_le hpoint.1.le
    rw [if_pos hpoint, String.toList_ofList]
    exact spells_take_drop hds (by omega) (by omega)
  rw [if_neg hpoint]
  by_cases hsmall : -6 < n ∧ n ≤ 0
  · obtain ⟨zeros, hzeros⟩ := Int.eq_ofNat_of_zero_le (show 0 ≤ -n by omega)
    obtain rfl : n = -zeros := by omega
    rw [if_pos hsmall, String.toList_ofList, hzeros]
    exact spells_zero_point hds zeros
  rw [if_neg hsmall]
  obtain ⟨d, tail, rfl, -⟩ := hds.head
  have hsign : (if n < 1 then "-" else "+").toList = [if n < 1 then '-' else '+'] := by
    split_ifs <;> rfl
  have hplace : n - ((d :: tail).length : ℤ) = n - 1 - tail.length := by
    rw [List.length_cons]
    omega
  have hspells := spells_exponent hds (n - 1)
  rw [hplace]
  cases tail with
  | nil => simpa [Spelling.exponentChars, hsign] using hspells
  | cons c tail => simpa [Spelling.exponentChars, hsign] using hspells

/-! ### Texts of numbers -/

/-- A text that spells a decimal between the bounds of a number denotes the number. -/
theorem denotesNumber_of_spells {text : List Char} {x : ℚ} (h : Spells text x) {n : ℕ} (hn : 0 < n)
    (hn' : Number.IsSignificant n) (hlt : n < Binary64.sizeLimit)
    (hx : (Number.Interval.ofUnits n).Holds (x * one)) :
    DenotesNumber text (.finite n) ∧ DenotesNumber ('-' :: text) (.finite (-n)) := by
  obtain ⟨p, hp, rfl, rfl⟩ := h
  have hread := Number.ofDecimal_of_holds hn hn' hlt hx
  have hdenotes := hp.denotesNumber
  rwa [hread, hread] at hdenotes

theorem isLeading_toDigits {n : ℕ} (hn : 0 < n) : IsLeading (Nat.toDigits 10 n) where
  digits _ hc := Nat.isDigit_of_mem_toDigits (by decide) (by decide) hc
  head := Number.exists_toDigits_eq_cons (by decide) (by decide) hn

/-- The digits of a number are what is left when the zeros at their end are taken away, and these
zeros. -/
theorem stripZeros_append {kept : List Char} {zeros : ℕ}
    (h : Number.stripZeros ds = (kept, zeros)) :
    ds = kept ++ List.replicate zeros '0' := by
  simp only [Number.stripZeros, Prod.mk.injEq] at h
  obtain ⟨rfl, rfl⟩ := h
  have hsplit := List.takeWhile_append_dropWhile (p := (· = '0')) (l := ds.reverse)
  have hzeros : ds.reverse.takeWhile (· = '0') =
      List.replicate (ds.reverse.takeWhile (· = '0')).length '0' := by
    refine List.eq_replicate_iff.2 ⟨rfl, fun c hc ↦ ?_⟩
    simpa using List.mem_takeWhile_imp hc
  have hlength : ds.length - (ds.reverse.dropWhile (· = '0')).reverse.length =
      (ds.reverse.takeWhile (· = '0')).length := by
    have := congrArg List.length hsplit
    simp only [List.length_append, List.length_reverse] at this ⊢
    omega
  have hreverse := congrArg List.reverse hsplit
  rw [List.reverse_append, List.reverse_reverse, hzeros, List.reverse_replicate] at hreverse
  rw [hlength]
  exact hreverse.symm

theorem isLeading_of_append {zeros n : ℕ} (hn : 0 < n)
    (h : Nat.toDigits 10 n = ds ++ List.replicate zeros '0') : IsLeading ds := by
  obtain ⟨hall, d, tail, hdigits, hd⟩ := isLeading_toDigits hn
  rw [hdigits] at hall h
  refine ⟨fun c hc ↦ hall c (h ▸ List.mem_append_left _ hc), ?_⟩
  cases ds with
  | nil =>
    have hmem : d ∈ List.replicate zeros '0' := by
      rw [← List.nil_append (List.replicate zeros '0'), ← h]
      exact List.mem_cons_self
    exact absurd (List.eq_of_mem_replicate hmem) hd
  | cons c cs => exact ⟨c, cs, rfl, (List.cons_eq_cons.1 h).1 ▸ hd⟩

/-- **The text of a positive number spells a decimal between its bounds.** -/
theorem exists_spells_positiveText {n : ℕ} (hn : 0 < n) (h : Number.IsSignificant n) :
    ∃ x, Spells (Number.positiveText n).toList x ∧ (Number.Interval.ofUnits n).Holds (x * one) := by
  unfold Number.positiveText
  split
  · rename_i hwhole
    have hpos : 0 < n / one := Nat.div_pos (Nat.le_of_dvd hn (Nat.dvd_of_mod_eq_zero hwhole.1))
      Binary64.one_pos
    refine ⟨(n / one : ℕ), ?_, ?_⟩
    · have hspells := spells_append_replicate (isLeading_toDigits hpos) 0
      rw [Number.digitsValue_toDigits] at hspells
      simpa using hspells
    · obtain ⟨m, s, hscaled⟩ := h.exists_isScaled
      rw [← Nat.cast_mul, Nat.div_mul_cancel (Nat.dvd_of_mod_eq_zero hwhole.1)]
      exact Number.Interval.holds_ofUnits_self hscaled hn
  · have hholds := Number.holds_shortest hn h
    have hpos := Number.shortest_pos hn h
    split
    rename_i value exponent hshortest
    split
    rename_i digits zeros hstrip
    rw [hshortest] at hholds hpos
    have happend := stripZeros_append hstrip
    refine ⟨value * 10 ^ exponent, ?_, hholds⟩
    have hspells := spells_layout (isLeading_of_append hpos happend)
      (digits.length + zeros + exponent)
    have hvalue : value = digitsValue digits * 10 ^ zeros := by
      rw [← digitsValue_append_replicate, ← happend, Number.digitsValue_toDigits]
    have hplace : (digits.length : ℤ) + zeros + exponent - digits.length = zeros + exponent := by
      omega
    rw [hplace, zpow_add₀ (by norm_num), zpow_natCast, ← mul_assoc] at hspells
    rw [hvalue]
    push_cast
    exact hspells

/-! ### Numbers as values -/

/-- What is left of a number in a JSON text: its value, when it is finite. The sign of a zero is not
written. -/
def kept? : Binary64 → Option Binary64
  | .nan => none
  | .infinity _ => none
  | .negZero => some (.finite 0)
  | .finite units => some (.finite units)

theorem denotesNumber_zero : DenotesNumber ['0'] (.finite 0) := by
  have hvalid : Spelling.IsValid ⟨['0'], [], none⟩ := ⟨.inl rfl, List.forall_mem_nil _⟩
  have hzero := hvalid.denotesNumber.1
  rwa [Spelling.digits, show digitsValue (['0'] ++ []) = 0 from rfl,
    Binary64.ofDecimal_zero] at hzero

theorem denotesNumber_positiveText {n : ℕ} (hn : 0 < n) (h : Number.IsSignificant n)
    (hlt : n < Binary64.sizeLimit) :
    DenotesNumber (Number.positiveText n).toList (.finite n) ∧
      DenotesNumber ('-' :: (Number.positiveText n).toList) (.finite (-n)) := by
  obtain ⟨x, hspells, hholds⟩ := exists_spells_positiveText hn h
  exact denotesNumber_of_spells hspells hn h hlt hholds

/-- **The text of a number denotes what is left of it.** -/
theorem denotesNumber_numeral {x y : Binary64} (h : x.IsFormat) (hkept : kept? x = some y) :
    DenotesNumber (numeral x) y := by
  cases h with
  | nan => cases hkept
  | infinity negative => cases hkept
  | negZero =>
    cases hkept
    exact denotesNumber_zero
  | @finite units hunits hlt =>
    cases hkept
    have htext : numeral (.finite units) = (Binary64.finite units).text.toList := rfl
    rw [htext, Binary64.text]
    split_ifs with hzero hneg
    · rw [hzero]
      exact denotesNumber_zero
    · have hdenotes := (denotesNumber_positiveText (Int.natAbs_pos.2 hzero) hunits hlt).2
      rw [show -(units.natAbs : ℤ) = units by omega] at hdenotes
      rw [String.toList_append]
      exact hdenotes
    · have hdenotes := (denotesNumber_positiveText (Int.natAbs_pos.2 hzero) hunits hlt).1
      rwa [show (units.natAbs : ℤ) = units by omega] at hdenotes

end IndexSnapshot.Json
