import IndexSnapshot.Proofs.Json.Grammar
import IndexSnapshot.Proofs.Number.Digits
import Mathlib.Data.List.Basic
import Mathlib.Data.List.TakeWhile

/-!
# Numbers and strings as they are read

Numbers and strings are read as the grammar has them: what is read denotes what it is read as
(`denotesNumber_of_numeral?`, `denotesString_of_quoted?`), and what denotes is read, whatever stands
behind it, as long as a number ends there (`numeral?_of_denotesNumber`,
`quoted?_of_denotesString`).
-/

namespace IndexSnapshot.Json

open Magnitude (digitsValue)
open Text (Encoded)

variable {c mark : Char} {cs ds es rest whole point power fraction body : List Char} {e : ℤ}
  {x : Binary64} {u : UInt16} {us : Utf16}

/-! ### Digits -/

/-- No numeral goes on with the text. -/
def EndsNumeral (cs : List Char) : Prop :=
  ∀ c ∈ cs.head?, c.isDigit = false ∧ c ≠ '.' ∧ c ≠ 'e' ∧ c ≠ 'E'

/-- No digit stands at the front of the text. -/
def EndsDigits (cs : List Char) : Prop := ∀ c ∈ cs.head?, c.isDigit = false

theorem EndsNumeral.endsDigits (h : EndsNumeral rest) : EndsDigits rest := fun c hc ↦ (h c hc).1

theorem endsDigits_cons {c : Char} (h : c.isDigit = false) (cs : List Char) :
    EndsDigits (c :: cs) := fun d hd ↦ by
  obtain rfl := Option.some.inj hd
  exact h

theorem spanDecimal_append (hds : ∀ c ∈ ds, c.isDigit = true) (hrest : EndsDigits rest) :
    Number.spanDecimal (ds ++ rest) = (ds, rest) := by
  have hstop : rest.takeWhile Char.isDigit = [] ∧ rest.dropWhile Char.isDigit = rest := by
    cases rest with
    | nil => exact ⟨rfl, rfl⟩
    | cons c cs =>
      have hc : ¬ c.isDigit = true := by simp [hrest c rfl]
      exact ⟨List.takeWhile_cons_of_neg hc, List.dropWhile_cons_of_neg hc⟩
  rw [Number.spanDecimal, List.takeWhile_append_of_pos hds, List.dropWhile_append_of_pos hds,
    hstop.1, hstop.2, List.append_nil]

theorem wholeDigits?_append (hds : IsWhole ds) (hrest : EndsDigits rest) :
    wholeDigits? (ds ++ rest) = some (ds, rest) := by
  rcases hds with rfl | ⟨hds, d, tail, rfl, hd⟩
  · rfl
  · have hspan := spanDecimal_append hds hrest
    rw [List.cons_append] at hspan ⊢
    unfold wholeDigits?
    split
    · rename_i heq
      exact absurd (List.cons_eq_cons.1 heq).1 hd
    · rw [hspan]

theorem fractionDigits?_append (hds : IsDigits ds) (hrest : EndsDigits rest) :
    fractionDigits? ('.' :: (ds ++ rest)) = some (ds, rest) := by
  obtain ⟨d, tail, rfl⟩ := List.exists_cons_of_ne_nil hds.ne_nil
  rw [fractionDigits?, spanDecimal_append hds.all hrest]

theorem fractionDigits?_of_ne (hrest : ∀ c ∈ rest.head?, c ≠ '.') :
    fractionDigits? rest = some ([], rest) := by
  unfold fractionDigits?
  split
  · exact absurd rfl (hrest '.' rfl)
  · rfl

theorem exponentPart?_of_ne (hrest : ∀ c ∈ rest.head?, c ≠ 'e' ∧ c ≠ 'E') :
    exponentPart? rest = some (0, rest) := by
  cases rest with
  | nil => rfl
  | cons c cs =>
    obtain ⟨hsmall, hcapital⟩ := hrest c rfl
    rw [exponentPart?, if_neg (not_or.2 ⟨hsmall, hcapital⟩)]

/-! ### Numbers -/

theorem isDigits_of_spanDecimal (h : Number.spanDecimal cs = (ds, rest)) (hne : ds ≠ []) :
    cs = ds ++ rest ∧ IsDigits ds := by
  obtain ⟨rfl, rfl⟩ := Prod.mk.inj h
  exact ⟨List.takeWhile_append_dropWhile.symm, fun _ hc ↦ List.mem_takeWhile_imp hc, hne⟩

theorem isWhole_of_wholeDigits? (h : wholeDigits? cs = some (ds, rest)) :
    cs = ds ++ rest ∧ IsWhole ds := by
  unfold wholeDigits? at h
  split at h
  · cases h
    exact ⟨rfl, .inl rfl⟩
  · rename_i hzero
    split at h
    · cases h
    · rename_i hne hspan
      cases h
      obtain ⟨rfl, hds⟩ := isDigits_of_spanDecimal hspan hne
      obtain ⟨d, tail, rfl⟩ := List.exists_cons_of_ne_nil hds.ne_nil
      exact ⟨rfl, .inr ⟨hds.all, d, tail, rfl, fun heq ↦ hzero _ (by rw [heq]; rfl)⟩⟩

theorem denotesFraction_of_fractionDigits? (h : fractionDigits? cs = some (ds, rest)) :
    ∃ point, cs = point ++ rest ∧ DenotesFraction point ds := by
  unfold fractionDigits? at h
  split at h
  · rename_i behind
    cases hspan : Number.spanDecimal behind with
    | mk ds' rest' =>
      rw [hspan] at h
      split at h
      · cases h
      · rename_i hne heq
        cases h
        cases heq
        obtain ⟨rfl, hds⟩ := isDigits_of_spanDecimal hspan hne
        exact ⟨'.' :: ds, rfl, .point hds⟩
  · cases h
    exact ⟨[], rfl, .none⟩

theorem denotesExponent_of_signedExponent? (hmark : IsExponentMark mark)
    (h : Number.signedExponent? cs = some (e, rest)) :
    ∃ power, mark :: cs = power ++ rest ∧ DenotesExponent power e := by
  unfold Number.signedExponent? at h
  split at h
  rename_i hsign
  split at h
  · cases h
  · rename_i ds rest' hne hspan
    obtain ⟨hcs, hds⟩ := isDigits_of_spanDecimal hspan hne
    obtain ⟨rfl, rfl⟩ := Prod.mk.inj (Option.some.inj h)
    split at hsign
    · cases hsign
      exact ⟨mark :: '-' :: ds, by rw [hcs]; rfl, .minus hmark hds⟩
    · cases hsign
      exact ⟨mark :: '+' :: ds, by rw [hcs]; rfl, .plus hmark hds⟩
    · cases hsign
      exact ⟨mark :: ds, by rw [hcs]; rfl, .unsigned hmark hds⟩

theorem denotesExponent_of_exponentPart? (h : exponentPart? cs = some (e, rest)) :
    ∃ power, cs = power ++ rest ∧ DenotesExponent power e := by
  unfold exponentPart? at h
  split at h
  · split at h
    · rename_i hmark
      exact denotesExponent_of_signedExponent? hmark h
    · cases h
      exact ⟨[], rfl, .none⟩
  · cases h
    exact ⟨[], rfl, .none⟩

/-- **What is read as a number denotes it.** -/
theorem denotesNumber_of_numeral? (h : numeral? cs = some (x, rest)) :
    ∃ body, cs = body ++ rest ∧ DenotesNumber body x := by
  unfold numeral? at h
  split at h
  rename_i negative unsigned hsign
  obtain ⟨⟨whole, behind⟩, hreadWhole, h⟩ := Option.bind_eq_some_iff.1 h
  obtain ⟨⟨fraction, behind'⟩, hreadFraction, h⟩ := Option.bind_eq_some_iff.1 h
  obtain ⟨⟨e, behind''⟩, hreadExponent, h⟩ := Option.bind_eq_some_iff.1 h
  obtain ⟨hunsigned, hwhole⟩ := isWhole_of_wholeDigits? hreadWhole
  obtain ⟨point, hbehind, hfraction⟩ := denotesFraction_of_fractionDigits? hreadFraction
  obtain ⟨power, hbehind', hexponent⟩ := denotesExponent_of_exponentPart? hreadExponent
  obtain ⟨rfl, rfl⟩ := Prod.mk.inj (Option.some.inj h)
  have htext : unsigned = (whole ++ (point ++ power)) ++ behind'' := by
    rw [hunsigned, hbehind, hbehind', List.append_assoc, List.append_assoc]
  split at hsign
  · cases hsign
    exact ⟨'-' :: (whole ++ (point ++ power)), congrArg (List.cons '-') htext,
      .negative hwhole hfraction hexponent⟩
  · cases hsign
    exact ⟨whole ++ (point ++ power), htext, .positive hwhole hfraction hexponent⟩

theorem signedExponent?_append (hds : IsDigits ds) (hrest : EndsDigits rest) :
    Number.signedExponent? (ds ++ rest) = some ((digitsValue ds : ℤ), rest) ∧
      Number.signedExponent? ('+' :: (ds ++ rest)) = some ((digitsValue ds : ℤ), rest) ∧
      Number.signedExponent? ('-' :: (ds ++ rest)) = some (-(digitsValue ds : ℤ), rest) := by
  have hspan := spanDecimal_append hds.all hrest
  obtain ⟨d, ds, rfl⟩ := List.exists_cons_of_ne_nil hds.ne_nil
  have hd := hds.all d List.mem_cons_self
  refine ⟨?_, ?_, ?_⟩
  · unfold Number.signedExponent?
    split
    rename_i hsign
    rw [List.cons_append] at hsign hspan
    split at hsign
    · rename_i heq
      rw [(List.cons_eq_cons.1 heq).1] at hd
      exact absurd hd (by decide)
    · rename_i heq
      rw [(List.cons_eq_cons.1 heq).1] at hd
      exact absurd hd (by decide)
    · cases hsign
      rw [hspan]
      rfl
  · simp only [Number.signedExponent?, hspan, Bool.false_eq_true, if_false]
  · simp only [Number.signedExponent?, hspan, if_true]

theorem exponentPart?_of_denotesExponent (h : DenotesExponent power e) (hrest : EndsNumeral rest) :
    exponentPart? (power ++ rest) = some (e, rest) := by
  cases h with
  | none => exact exponentPart?_of_ne fun c hc ↦ (hrest c hc).2.2
  | unsigned hmark hds =>
    exact (if_pos hmark).trans (signedExponent?_append hds hrest.endsDigits).1
  | plus hmark hds =>
    exact (if_pos hmark).trans (signedExponent?_append hds hrest.endsDigits).2.1
  | minus hmark hds =>
    exact (if_pos hmark).trans (signedExponent?_append hds hrest.endsDigits).2.2

/-- No digit and no point stands at the front of an exponent. -/
theorem DenotesExponent.ends (h : DenotesExponent power e) (hrest : EndsNumeral rest) :
    ∀ c ∈ (power ++ rest).head?, c.isDigit = false ∧ c ≠ '.' := by
  have hmark : ∀ {mark : Char}, IsExponentMark mark → mark.isDigit = false ∧ mark ≠ '.' := by
    rintro mark (rfl | rfl) <;> decide
  intro c hc
  cases h with
  | none => exact ⟨(hrest c hc).1, (hrest c hc).2.1⟩
  | unsigned h | plus h | minus h =>
    obtain rfl := Option.some.inj hc
    exact hmark h

theorem fractionDigits?_of_denotesFraction (h : DenotesFraction point fraction)
    (hrest : ∀ c ∈ rest.head?, c.isDigit = false ∧ c ≠ '.') :
    fractionDigits? (point ++ rest) = some (fraction, rest) := by
  cases h with
  | none => exact fractionDigits?_of_ne fun c hc ↦ (hrest c hc).2
  | point hds => exact fractionDigits?_append hds fun c hc ↦ (hrest c hc).1

/-- No digit stands at the front of a fraction. -/
theorem DenotesFraction.endsDigits (h : DenotesFraction point fraction) (hrest : EndsDigits rest) :
    EndsDigits (point ++ rest) := by
  cases h with
  | none => exact hrest
  | point hds => exact endsDigits_cons (by decide) _

/-- The parts of a number are read one after the other. -/
theorem parts_append (hwhole : IsWhole whole) (hfraction : DenotesFraction point fraction)
    (hexponent : DenotesExponent power e) (hrest : EndsNumeral rest) :
    wholeDigits? (whole ++ (point ++ power) ++ rest) = some (whole, point ++ (power ++ rest)) ∧
      fractionDigits? (point ++ (power ++ rest)) = some (fraction, power ++ rest) ∧
      exponentPart? (power ++ rest) = some (e, rest) := by
  have hends := hexponent.ends hrest
  refine ⟨?_, fractionDigits?_of_denotesFraction hfraction hends,
    exponentPart?_of_denotesExponent hexponent hrest⟩
  rw [List.append_assoc, List.append_assoc]
  exact wholeDigits?_append hwhole (hfraction.endsDigits fun c hc ↦ (hends c hc).1)

/-- **What denotes a number is read as the number**, when no numeral goes on behind it. -/
theorem numeral?_of_denotesNumber (h : DenotesNumber body x) (hrest : EndsNumeral rest) :
    numeral? (body ++ rest) = some (x, rest) := by
  unfold numeral?
  split
  rename_i negative unsigned hsign
  cases h with
  | positive hwhole hfraction hexponent =>
    obtain ⟨hreadWhole, hreadFraction, hreadExponent⟩ :=
      parts_append hwhole hfraction hexponent hrest
    obtain ⟨d, tail, rfl, hd⟩ := hwhole.exists_cons
    split at hsign
    · rename_i heq
      rw [(List.cons_eq_cons.1 heq).1] at hd
      exact absurd hd (by decide)
    · cases hsign
      simp only [hreadWhole, hreadFraction, hreadExponent, Option.bind_eq_bind, Option.bind_some]
      rfl
  | @negative whole point _ power _ hwhole hfraction hexponent =>
    obtain ⟨hreadWhole, hreadFraction, hreadExponent⟩ :=
      parts_append hwhole hfraction hexponent hrest
    have hsign : (true, whole ++ (point ++ power) ++ rest) = (negative, unsigned) := hsign
    cases hsign
    simp only [hreadWhole, hreadFraction, hreadExponent, Option.bind_eq_bind, Option.bind_some]
    rfl

/-! ### Strings -/

theorem unit?_append (hds : IsUnit ds u) (rest : List Char) :
    unit? (ds ++ rest) = some (u, rest) := by
  obtain ⟨hlength, hvalue⟩ := hds
  obtain ⟨a, b, c, d, rfl⟩ := List.length_eq_four.1 hlength
  have hunit : unit? ([a, b, c, d] ++ rest) =
      (Number.valueIn? 16 [a, b, c, d]).map fun n ↦ (UInt16.ofNat n, rest) := rfl
  rw [hunit, hvalue, Option.map_some, UInt16.ofNat_toNat]

theorem isUnit_of_unit? (h : unit? cs = some (u, rest)) : ∃ ds, cs = ds ++ rest ∧ IsUnit ds u := by
  unfold unit? at h
  split at h
  · rename_i a b c d behind
    obtain ⟨n, hvalue, h⟩ := Option.map_eq_some_iff.1 h
    obtain ⟨rfl, rfl⟩ := Prod.mk.inj h
    -- four digits denote no more than a unit holds
    have hlt : n < 16 ^ 4 := Number.valueIn?_lt hvalue
    exact ⟨[a, b, c, d], rfl, rfl, by rw [hvalue, Text.toNat_ofNat_of_lt hlt]⟩
  · cases h

theorem stringBody?_short {letter meaning : Char} (hletter : letter ≠ 'u')
    (h : shortEscapes.lookup letter = some meaning) (rest : List Char) :
    stringBody? ('\\' :: letter :: rest) =
      (stringBody? rest).map fun (us, tail) ↦ (Text.charUnits meaning ++ us, tail) := by
  rw [stringBody?]
  · rw [h]
  · exact fun heq ↦ hletter heq

theorem stringBody?_numbered (hds : IsUnit ds u) (rest : List Char) :
    stringBody? ('\\' :: 'u' :: (ds ++ rest)) =
      (stringBody? rest).map fun (us, tail) ↦ (u :: us, tail) := by
  rw [stringBody?]
  split
  · rename_i heq
    rw [unit?_append hds] at heq
    cases heq
    rfl
  · rename_i heq
    rw [unit?_append hds] at heq
    cases heq

theorem stringBody?_plain (hquote : c ≠ '"') (hslash : c ≠ '\\') (hc : ¬ c < ' ')
    (rest : List Char) :
    stringBody? (c :: rest) =
      (stringBody? rest).map fun (us, tail) ↦ (Text.charUnits c ++ us, tail) := by
  rw [stringBody?.eq_def]
  split
  · rename_i heq
    cases heq
  · rename_i heq
    exact absurd (List.cons_eq_cons.1 heq).1 hquote
  · rename_i heq
    exact absurd (List.cons_eq_cons.1 heq).1 hslash
  · rename_i heq
    exact absurd (List.cons_eq_cons.1 heq).1 hslash
  · rename_i heq
    cases heq
    rw [if_neg (not_or.2 ⟨hc, hslash⟩)]

/-- **What is read up to the closing quote denotes its units.** -/
theorem denotesString_of_stringBody? (h : stringBody? cs = some (us, rest)) :
    ∃ body, cs = body ++ '"' :: rest ∧ DenotesString body us := by
  fun_induction stringBody? cs generalizing us with
  | case1 | case4 | case6 | case7 => cases h
  | case2 =>
    cases h
    exact ⟨[], rfl, .nil⟩
  | case3 behind u _ hread ih =>
    obtain ⟨⟨us, tail⟩, htail, h⟩ := Option.map_eq_some_iff.1 h
    obtain ⟨rfl, rfl⟩ := Prod.mk.inj h
    obtain ⟨body, rfl, hbody⟩ := ih htail
    obtain ⟨ds, rfl, hds⟩ := isUnit_of_unit? hread
    exact ⟨'\\' :: 'u' :: (ds ++ body), by simp, .numbered hds hbody⟩
  | case5 letter behind hu meaning hletter ih =>
    obtain ⟨⟨us, tail⟩, htail, h⟩ := Option.map_eq_some_iff.1 h
    obtain ⟨rfl, rfl⟩ := Prod.mk.inj h
    obtain ⟨body, rfl, hbody⟩ := ih htail
    exact ⟨'\\' :: letter :: body, rfl, .short hletter hbody⟩
  | case8 c behind hquote _ _ hplain ih =>
    obtain ⟨hcontrol, hslash⟩ := not_or.1 hplain
    obtain ⟨⟨us, tail⟩, htail, h⟩ := Option.map_eq_some_iff.1 h
    obtain ⟨rfl, rfl⟩ := Prod.mk.inj h
    obtain ⟨body, rfl, hbody⟩ := ih htail
    exact ⟨c :: body, rfl, .plain hquote hslash hcontrol hbody⟩

/-- **What denotes the units of a string is read as them**, up to the closing quote. -/
theorem stringBody?_of_denotesString (h : DenotesString body us) (rest : List Char) :
    stringBody? (body ++ '"' :: rest) = some (us, rest) := by
  induction h with
  | nil => rw [List.nil_append, stringBody?]
  | plain hquote hslash hcontrol _ ih =>
    rw [List.cons_append, stringBody?_plain hquote hslash hcontrol, ih]
    rfl
  | @short letter _ _ _ hletter _ ih =>
    have hu : letter ≠ 'u' := by
      rintro rfl
      cases hletter
    rw [List.cons_append, List.cons_append, stringBody?_short hu hletter, ih]
    rfl
  | numbered hds _ ih =>
    rw [List.cons_append, List.cons_append, List.append_assoc, stringBody?_numbered hds, ih]
    rfl

variable {τ : Type} [Encoded τ] {t : τ}

theorem denotesString_of_quoted? (h : quoted? cs = some (t, rest)) :
    ∃ body, cs = body ++ '"' :: rest ∧ DenotesString body (Encoded.units t) := by
  obtain ⟨⟨us, behind⟩, hread, h⟩ := Option.bind_eq_some_iff.1 h
  obtain ⟨s, hs, h⟩ := Option.bind_eq_some_iff.1 h
  obtain ⟨rfl, rfl⟩ := Prod.mk.inj (Option.some.inj h)
  rw [Encoded.ofUnits?_eq_some_iff.1 hs]
  exact denotesString_of_stringBody? hread

theorem quoted?_of_denotesString (h : DenotesString body (Encoded.units t)) (rest : List Char) :
    quoted? (body ++ '"' :: rest) = some (t, rest) := by
  simp only [quoted?, stringBody?_of_denotesString h, Option.bind_eq_bind, Option.bind_some,
    Encoded.ofUnits?_units]
  rfl

end IndexSnapshot.Json
