import IndexSnapshot.Json.Parser
import Mathlib.Data.Int.Notation
import Mathlib.Data.Nat.Notation

/-!
# The grammar of JSON

Which texts are JSON texts, and what they denote, without a reader: numbers, what stands between
the quotes of a string, and values with their parts. Each relation has one constructor for each
form that a text may have.
-/

namespace IndexSnapshot.Json

open Magnitude (digitsValue)
open Text (Encoded)

/-! ### Numbers -/

/-- Digits, one at least. -/
structure IsDigits (ds : List Char) : Prop where
  all : ∀ c ∈ ds, c.isDigit = true
  ne_nil : ds ≠ []

/-- The whole part of a numeral: a zero, or digits of which the first is none. -/
def IsWhole (ds : List Char) : Prop :=
  ds = ['0'] ∨ (∀ c ∈ ds, c.isDigit = true) ∧ ∃ d tail, ds = d :: tail ∧ d ≠ '0'

/-- The letter before an exponent. -/
def IsExponentMark (c : Char) : Prop := c = 'e' ∨ c = 'E'

/-- The characters denote the digits of a fraction: there is none, or they stand behind a point. -/
inductive DenotesFraction : List Char → List Char → Prop
  | none : DenotesFraction [] []
  | point {ds : List Char} (hds : IsDigits ds) : DenotesFraction ('.' :: ds) ds

/-- The characters denote an exponent: there is none, or it stands behind a letter, with a sign or
without. -/
inductive DenotesExponent : List Char → ℤ → Prop
  | none : DenotesExponent [] 0
  | unsigned {mark : Char} {ds : List Char} (hmark : IsExponentMark mark) (hds : IsDigits ds) :
      DenotesExponent (mark :: ds) (digitsValue ds)
  | plus {mark : Char} {ds : List Char} (hmark : IsExponentMark mark) (hds : IsDigits ds) :
      DenotesExponent (mark :: '+' :: ds) (digitsValue ds)
  | minus {mark : Char} {ds : List Char} (hmark : IsExponentMark mark) (hds : IsDigits ds) :
      DenotesExponent (mark :: '-' :: ds) (-digitsValue ds)

/-- The characters denote a number: whole digits, a fraction and an exponent, with a minus sign or
without a sign. -/
inductive DenotesNumber : List Char → Binary64 → Prop
  | positive {whole point fraction power : List Char} {e : ℤ} (hwhole : IsWhole whole)
      (hfraction : DenotesFraction point fraction) (hexponent : DenotesExponent power e) :
      DenotesNumber (whole ++ (point ++ power)) (Number.assemble false whole fraction e)
  | negative {whole point fraction power : List Char} {e : ℤ} (hwhole : IsWhole whole)
      (hfraction : DenotesFraction point fraction) (hexponent : DenotesExponent power e) :
      DenotesNumber ('-' :: (whole ++ (point ++ power))) (Number.assemble true whole fraction e)

/-! ### Strings -/

/-- Four hexadecimal digits that denote a 16-bit unit. -/
structure IsUnit (ds : List Char) (u : UInt16) : Prop where
  length : ds.length = 4
  value : Number.valueIn? 16 ds = some u.toNat

/-- What stands between the quotes of a string denotes its units: a character stands for all units
of it, and an escape by number for one unit, which may be half of a surrogate pair. -/
inductive DenotesString : List Char → Utf16 → Prop
  | nil : DenotesString [] []
  | plain {c : Char} {body : List Char} {us : Utf16} (hquote : c ≠ '"') (hslash : c ≠ '\\')
      (hcontrol : ¬ c < ' ') (h : DenotesString body us) :
      DenotesString (c :: body) (Text.charUnits c ++ us)
  | short {letter meaning : Char} {body : List Char} {us : Utf16}
      (hletter : shortEscapes.lookup letter = some meaning) (h : DenotesString body us) :
      DenotesString ('\\' :: letter :: body) (Text.charUnits meaning ++ us)
  | numbered {ds body : List Char} {u : UInt16} {us : Utf16} (hds : IsUnit ds u)
      (h : DenotesString body us) : DenotesString ('\\' :: 'u' :: (ds ++ body)) (u :: us)

/-! ### Values -/

/-- The text is made of blanks. -/
def IsBlank (cs : List Char) : Prop := ∀ c ∈ cs, isSpace c = true

/-- What a piece of a JSON text may denote, with strings of a type. -/
inductive Phrase (τ : Type) where
  | value (v : Json τ)
  /-- The names and values of an object, in the order in which they are given. -/
  | object (pairs : List (τ × Json τ))
  /-- A value with blanks around it. -/
  | element (v : Json τ)
  | elements (vs : List (Json τ))
  | member (m : τ × Json τ)
  | members (ms : List (τ × Json τ))

variable {τ : Type} [DecidableEq τ] [Encoded τ]

/-- The characters denote the phrase. -/
inductive Denotes : List Char → Phrase τ → Prop
  | null : Denotes "null".toList (.value null)
  | true : Denotes "true".toList (.value (bool true))
  | false : Denotes "false".toList (.value (bool false))
  | number {cs : List Char} {x : Binary64} (h : DenotesNumber cs x) : Denotes cs (.value (number x))
  | string {body : List Char} {s : τ} (h : DenotesString body (Encoded.units s)) :
      Denotes ('"' :: (body ++ ['"'])) (.value (string s))
  | emptyArray {gap : List Char} (hgap : IsBlank gap) :
      Denotes ('[' :: (gap ++ [']'])) (.value (array []))
  | array {cs : List Char} {vs : List (Json τ)} (h : Denotes cs (.elements vs)) :
      Denotes ('[' :: (cs ++ [']'])) (.value (array vs))
  | object {cs : List Char} {pairs : List (τ × Json τ)} (h : Denotes cs (.object pairs)) :
      Denotes cs (.value (ofPairs pairs))
  | emptyBraces {gap : List Char} (hgap : IsBlank gap) :
      Denotes ('\x7b' :: (gap ++ ['\x7d'])) (.object [])
  | braces {cs : List Char} {pairs : List (τ × Json τ)} (h : Denotes cs (.members pairs)) :
      Denotes ('\x7b' :: (cs ++ ['\x7d'])) (.object pairs)
  | element {pre cs post : List Char} {v : Json τ} (hpre : IsBlank pre)
      (h : Denotes cs (.value v)) (hpost : IsBlank post) :
      Denotes (pre ++ (cs ++ post)) (.element v)
  | lastElement {cs : List Char} {v : Json τ} (h : Denotes cs (.element v)) :
      Denotes cs (.elements [v])
  | moreElements {cs ds : List Char} {v : Json τ} {vs : List (Json τ)} (h : Denotes cs (.element v))
      (hmore : Denotes ds (.elements vs)) : Denotes (cs ++ ',' :: ds) (.elements (v :: vs))
  | member {pre body post cs : List Char} {name : τ} {v : Json τ} (hpre : IsBlank pre)
      (hname : DenotesString body (Encoded.units name)) (hpost : IsBlank post)
      (h : Denotes cs (.element v)) :
      Denotes (pre ++ '"' :: (body ++ '"' :: (post ++ ':' :: cs))) (.member (name, v))
  | lastMember {cs : List Char} {m : τ × Json τ} (h : Denotes cs (.member m)) :
      Denotes cs (.members [m])
  | moreMembers {cs ds : List Char} {m : τ × Json τ} {ms : List (τ × Json τ)}
      (h : Denotes cs (.member m)) (hmore : Denotes ds (.members ms)) :
      Denotes (cs ++ ',' :: ds) (.members (m :: ms))

/-! ### How texts begin -/

variable {c : Char} {cs ds s : List Char} {v : Json τ} {x : Binary64}

theorem IsWhole.exists_cons (h : IsWhole ds) : ∃ d tail, ds = d :: tail ∧ d.isDigit = true := by
  rcases h with rfl | ⟨hall, d, tail, rfl, -⟩
  · exact ⟨'0', [], rfl, by decide⟩
  · exact ⟨d, tail, rfl, hall d List.mem_cons_self⟩

/-- The character opens a value. -/
def Opens (c : Char) : Prop :=
  c.isDigit = true ∨ c ∈ ['-', '"', '[', '\x7b', 'n', 't', 'f']

instance (c : Char) : Decidable (Opens c) := inferInstanceAs (Decidable (_ ∨ _))

theorem Opens.ne {d : Char} (h : Opens c) (hd : ¬ Opens d) : c ≠ d := fun heq ↦ hd (heq ▸ h)

theorem Opens.isSpace_eq_false (h : Opens c) : isSpace c = false := by
  simp [isSpace, h.ne (d := ' ') (by decide), h.ne (d := '\t') (by decide),
    h.ne (d := '\n') (by decide), h.ne (d := '\r') (by decide)]

theorem DenotesNumber.exists_cons (h : DenotesNumber cs x) :
    ∃ d tail, cs = d :: tail ∧ (d.isDigit = true ∨ d = '-') := by
  cases h with
  | positive hwhole _ _ =>
    obtain ⟨d, tail, rfl, hd⟩ := hwhole.exists_cons
    exact ⟨d, _, rfl, .inl hd⟩
  | negative _ _ _ => exact ⟨'-', _, rfl, .inr rfl⟩

theorem Denotes.exists_cons (h : Denotes cs (.value v)) : ∃ d tail, cs = d :: tail ∧ Opens d := by
  cases h with
  | null => exact ⟨'n', _, rfl, by decide⟩
  | true => exact ⟨'t', _, rfl, by decide⟩
  | false => exact ⟨'f', _, rfl, by decide⟩
  | number h =>
    obtain ⟨d, tail, rfl, hd | rfl⟩ := h.exists_cons
    · exact ⟨d, tail, rfl, .inl hd⟩
    · exact ⟨'-', tail, rfl, by decide⟩
  | string _ => exact ⟨'"', _, rfl, by decide⟩
  | emptyArray _ | array _ => exact ⟨'[', _, rfl, by decide⟩
  | object h =>
    cases h with
    | emptyBraces _ | braces _ => exact ⟨'\x7b', _, rfl, by decide⟩

/-! ### Characters of numbers -/

/-- The character may stand in a number. -/
def IsNumberChar (c : Char) : Prop := c.isDigit = true ∨ c ∈ ['-', '+', '.', 'e', 'E']

instance (c : Char) : Decidable (IsNumberChar c) := inferInstanceAs (Decidable (_ ∨ _))

theorem IsWhole.isNumberChar_of_mem (h : IsWhole ds) (hc : c ∈ ds) : IsNumberChar c := by
  rcases h with rfl | ⟨hall, -⟩
  · rw [List.mem_singleton.1 hc]
    exact .inl rfl
  · exact .inl (hall c hc)

theorem DenotesFraction.isNumberChar_of_mem {fraction : List Char} (h : DenotesFraction cs fraction)
    (hc : c ∈ cs) : IsNumberChar c := by
  cases h with
  | none => exact absurd hc List.not_mem_nil
  | point hds =>
    rcases List.mem_cons.1 hc with rfl | hc
    · exact .inr (by decide)
    · exact .inl (hds.all c hc)

theorem DenotesExponent.isNumberChar_of_mem {e : ℤ} (h : DenotesExponent cs e) (hc : c ∈ cs) :
    IsNumberChar c := by
  have hmark : ∀ {mark : Char}, IsExponentMark mark → IsNumberChar mark := by
    rintro mark (rfl | rfl) <;> exact .inr (by decide)
  cases h with
  | none => exact absurd hc List.not_mem_nil
  | unsigned hm hds =>
    rcases List.mem_cons.1 hc with rfl | hc
    · exact hmark hm
    · exact .inl (hds.all c hc)
  | plus hm hds | minus hm hds =>
    rcases List.mem_cons.1 hc with rfl | hc
    · exact hmark hm
    · rcases List.mem_cons.1 hc with rfl | hc
      · exact .inr (by decide)
      · exact .inl (hds.all c hc)

theorem DenotesNumber.isNumberChar_of_mem (h : DenotesNumber cs x) (hc : c ∈ cs) :
    IsNumberChar c := by
  have hparts : ∀ {whole point fraction power : List Char} {e : ℤ}, IsWhole whole →
      DenotesFraction point fraction → DenotesExponent power e → c ∈ whole ++ (point ++ power) →
      IsNumberChar c := by
    intro whole point fraction power e hwhole hfraction hexponent hc
    rw [List.mem_append, List.mem_append] at hc
    rcases hc with hc | hc | hc
    · exact hwhole.isNumberChar_of_mem hc
    · exact hfraction.isNumberChar_of_mem hc
    · exact hexponent.isNumberChar_of_mem hc
  cases h with
  | positive hwhole hfraction hexponent => exact hparts hwhole hfraction hexponent hc
  | negative hwhole hfraction hexponent =>
    rcases List.mem_cons.1 hc with rfl | hc
    · exact .inr (by decide)
    · exact hparts hwhole hfraction hexponent hc

/-! ### Strings of units -/

/-- The characters denote a phrase of the same form with strings of units. -/
def IsPhrase (cs : List Char) : Phrase τ → Prop
  | .value _ => ∃ v : Json Utf16, Denotes cs (.value v)
  | .object _ => ∃ pairs : List (Utf16 × Json Utf16), Denotes cs (.object pairs)
  | .element _ => ∃ v : Json Utf16, Denotes cs (.element v)
  | .elements _ => ∃ vs : List (Json Utf16), Denotes cs (.elements vs)
  | .member _ => ∃ m : Utf16 × Json Utf16, Denotes cs (.member m)
  | .members _ => ∃ ms : List (Utf16 × Json Utf16), Denotes cs (.members ms)

/-- **Every JSON text has a meaning with strings of units**, if it has one with strings of any
type. -/
theorem Denotes.isPhrase {p : Phrase τ} (h : Denotes cs p) : IsPhrase cs p := by
  induction h with
  | null => exact ⟨_, .null⟩
  | true => exact ⟨_, .true⟩
  | false => exact ⟨_, .false⟩
  | number h => exact ⟨_, .number h⟩
  | @string _ s h => exact ⟨.string (Encoded.units s), .string h⟩
  | emptyArray hgap => exact ⟨_, .emptyArray hgap⟩
  | array _ ih =>
    obtain ⟨vs, hvs⟩ := ih
    exact ⟨_, .array hvs⟩
  | object _ ih =>
    obtain ⟨pairs, hpairs⟩ := ih
    exact ⟨_, .object hpairs⟩
  | emptyBraces hgap => exact ⟨_, .emptyBraces hgap⟩
  | braces _ ih =>
    obtain ⟨ms, hms⟩ := ih
    exact ⟨_, .braces hms⟩
  | element hpre _ hpost ih =>
    obtain ⟨v, hv⟩ := ih
    exact ⟨_, .element hpre hv hpost⟩
  | lastElement _ ih =>
    obtain ⟨v, hv⟩ := ih
    exact ⟨_, .lastElement hv⟩
  | moreElements _ _ ih ihmore =>
    obtain ⟨v, hv⟩ := ih
    obtain ⟨vs, hvs⟩ := ihmore
    exact ⟨_, .moreElements hv hvs⟩
  | @member _ _ _ _ name _ hpre hname hpost _ ih =>
    obtain ⟨v, hv⟩ := ih
    exact ⟨(Encoded.units name, v), .member hpre hname hpost hv⟩
  | lastMember _ ih =>
    obtain ⟨m, hm⟩ := ih
    exact ⟨_, .lastMember hm⟩
  | moreMembers _ _ ih ihmore =>
    obtain ⟨m, hm⟩ := ih
    obtain ⟨ms, hms⟩ := ihmore
    exact ⟨_, .moreMembers hm hms⟩

/-! ### Plain strings -/

/-- Characters that need no escape denote themselves. -/
theorem denotesString_of_forall (h : ∀ c ∈ s, c ≠ '"' ∧ c ≠ '\\' ∧ ¬ c < ' ') :
    DenotesString s (Text.utf16 s) := by
  induction s with
  | nil => exact .nil
  | cons c s ih =>
    obtain ⟨⟨hquote, hslash, hcontrol⟩, hs⟩ := List.forall_mem_cons.1 h
    have hunits : Text.utf16 (c :: s) = Text.charUnits c ++ Text.utf16 s := List.flatMap_cons
    rw [hunits]
    exact .plain hquote hslash hcontrol (ih hs)

end IndexSnapshot.Json
