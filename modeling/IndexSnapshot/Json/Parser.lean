import IndexSnapshot.Json.Basic
import IndexSnapshot.Text.Literal
import IndexSnapshot.Number.Numeral

/-!
# Reading JSON

A strict reader: one value with blanks around it and nothing else, no trailing commas, no leading
zeros, no control characters inside strings. A name that an object gives twice has its last value.

The reader descends into a value with a supply of steps. Every second step consumes a character,
so a supply of two steps for each character of the text, and two more, is never used up.
-/

namespace IndexSnapshot.Json

open Text (Encoded)

/-- A character that may stand between the tokens of a JSON text. -/
def isSpace (c : Char) : Bool := c = ' ' || c = '\t' || c = '\n' || c = '\r'

/-- The text without the space at its front. -/
def skipSpace (cs : List Char) : List Char := cs.dropWhile isSpace

/-- The 16-bit unit that four hexadecimal digits denote, and what follows them. -/
def unit? : List Char → Option (UInt16 × List Char)
  | a :: b :: c :: d :: rest =>
    (Number.valueIn? 16 [a, b, c, d]).map fun n ↦ (UInt16.ofNat n, rest)
  | _ => none

/-- The meaning of the letters of short escapes. -/
def shortEscapes : List (Char × Char) :=
  [('"', '"'), ('\\', '\\'), ('/', '/'), ('b', '\u0008'), ('f', '\u000c'), ('n', '\n'),
    ('r', '\r'), ('t', '\t')]

theorem length_lt_of_unit? {cs rest : List Char} {u : UInt16} (h : unit? cs = some (u, rest)) :
    rest.length < cs.length := by
  unfold unit? at h
  split at h
  · obtain ⟨m, _, hm⟩ := Option.map_eq_some_iff.1 h
    cases hm
    simp only [List.length_cons]
    omega
  · cases h

/-- The units of a string up to its closing quote, and what follows the quote. An escape by number
is one unit, be it half of a surrogate pair. -/
def stringBody? (cs : List Char) : Option (Utf16 × List Char) :=
  match cs with
  | [] => none
  | '"' :: rest => some ([], rest)
  | '\\' :: 'u' :: rest =>
    match _h : unit? rest with
    | some (u, rest') => (stringBody? rest').map fun (us, tail) ↦ (u :: us, tail)
    | none => none
  | '\\' :: c :: rest =>
    match shortEscapes.lookup c with
    | some meaning =>
      (stringBody? rest).map fun (us, tail) ↦ (Text.charUnits meaning ++ us, tail)
    | none => none
  | c :: rest =>
    if c < ' ' ∨ c = '\\' then none
    else (stringBody? rest).map fun (us, tail) ↦ (Text.charUnits c ++ us, tail)
termination_by cs.length
decreasing_by
  · have := length_lt_of_unit? _h
    simp only [List.length_cons]
    omega
  all_goals simp only [List.length_cons]; omega

/-- A string up to its closing quote, and what follows the quote. Units that encode no string of
the type are not read. -/
def quoted? {τ : Type} [Encoded τ] (cs : List Char) : Option (τ × List Char) := do
  let (us, rest) ← stringBody? cs
  let s ← Encoded.ofUnits? us
  return (s, rest)

/-- The whole digits of a number: a zero alone, or digits that do not begin with zero. -/
def wholeDigits? (cs : List Char) : Option (List Char × List Char) :=
  match cs with
  | '0' :: rest => some (['0'], rest)
  | _ =>
    match Number.spanDecimal cs with
    | ([], _) => none
    | (ds, rest) => some (ds, rest)

/-- The fraction of a number: a point and digits, or nothing. -/
def fractionDigits? (cs : List Char) : Option (List Char × List Char) :=
  match cs with
  | '.' :: rest =>
    match Number.spanDecimal rest with
    | ([], _) => none
    | (ds, rest) => some (ds, rest)
  | _ => some ([], cs)

/-- The exponent of a number: the letter `e` and a whole number, or nothing. -/
def exponentPart? (cs : List Char) : Option (Int × List Char) :=
  match cs with
  | c :: rest => if c = 'e' ∨ c = 'E' then Number.signedExponent? rest else some (0, cs)
  | [] => some (0, [])

/-- A number at the front. -/
def numeral? (cs : List Char) : Option (Binary64 × List Char) := do
  let (negative, cs) : Bool × List Char :=
    match cs with
    | '-' :: rest => (true, rest)
    | _ => (false, cs)
  let (whole, cs) ← wholeDigits? cs
  let (fraction, cs) ← fractionDigits? cs
  let (exponent, cs) ← exponentPart? cs
  return (Number.assemble negative whole fraction exponent, cs)

section

variable {τ : Type} [DecidableEq τ] [Encoded τ]

mutual

/-- A value at the front, blanks before it aside. -/
def value? : Nat → List Char → Option (Json τ × List Char)
  | 0, _ => none
  | steps + 1, cs =>
    match skipSpace cs with
    | '"' :: rest => (quoted? rest).map fun (s, tail) ↦ (string s, tail)
    | '[' :: rest =>
      match skipSpace rest with
      | ']' :: tail => some (array [], tail)
      | _ => (items? steps rest).map fun (vs, tail) ↦ (array vs, tail)
    | '\x7b' :: rest =>
      match skipSpace rest with
      | '\x7d' :: tail => some (object [], tail)
      | _ => (members? steps rest).map fun (ms, tail) ↦ (ofPairs ms, tail)
    | cs =>
      match Text.strip? "null".toList cs with
      | some tail => some (null, tail)
      | none =>
        match Text.strip? "true".toList cs with
        | some tail => some (bool true, tail)
        | none =>
          match Text.strip? "false".toList cs with
          | some tail => some (bool false, tail)
          | none => (numeral? cs).map fun (n, tail) ↦ (number n, tail)

/-- The items of a list, one at least, up to its closing bracket. -/
def items? : Nat → List Char → Option (List (Json τ) × List Char)
  | 0, _ => none
  | steps + 1, cs => do
    let (v, rest) ← value? steps cs
    match skipSpace rest with
    | ',' :: tail =>
      let (vs, rest) ← items? steps tail
      return (v :: vs, rest)
    | ']' :: tail => return ([v], tail)
    | _ => none

/-- The members of an object, one at least, up to its closing brace. -/
def members? : Nat → List Char → Option (List (τ × Json τ) × List Char)
  | 0, _ => none
  | steps + 1, cs =>
    match skipSpace cs with
    | '"' :: rest => do
      let (name, rest) ← quoted? rest
      match skipSpace rest with
      | ':' :: rest =>
        let (v, rest) ← value? steps rest
        match skipSpace rest with
        | ',' :: tail =>
          let (ms, rest) ← members? steps tail
          return ((name, v) :: ms, rest)
        | '\x7d' :: tail => return ([(name, v)], tail)
        | _ => none
      | _ => none
    | _ => none

end

end

/-- The value that a text spells; nothing when the text is no JSON text, or when one of its strings
is none of the type. -/
def parse? (text : String) (τ : Type := String) [DecidableEq τ] [Encoded τ] : Option (Json τ) :=
  let cs := text.toList
  match value? (2 * cs.length + 2) cs with
  | some (v, rest) => if rest.all isSpace then some v else none
  | none => none

end IndexSnapshot.Json
