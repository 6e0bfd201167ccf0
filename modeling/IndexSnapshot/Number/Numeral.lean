import IndexSnapshot.Text.Blank
import IndexSnapshot.Text.Letters
import IndexSnapshot.Number.Binary64

/-!
# Numerals

Texts that stand for a number: decimals with an optional sign, fraction and exponent, whole
numbers in base sixteen, eight or two behind `0x`, `0o` or `0b`, and the word `Infinity`. Blanks
around a numeral do not count, and a blank text stands for zero.
-/

namespace IndexSnapshot.Number

/-- The longest run of digits at the front, and the rest. -/
def spanDecimal (cs : List Char) : List Char × List Char :=
  (cs.takeWhile Char.isDigit, cs.dropWhile Char.isDigit)

/-- A whole exponent with an optional sign, digits at least one. -/
def signedExponent? (cs : List Char) : Option (Int × List Char) :=
  let (negative, cs) : Bool × List Char :=
    match cs with
    | '-' :: rest => (true, rest)
    | '+' :: rest => (false, rest)
    | _ => (false, cs)
  match spanDecimal cs with
  | ([], _) => none
  | (ds, rest) =>
    let n : Int := Magnitude.digitsValue ds
    some (if negative then -n else n, rest)

/-- The exponent part at the front: the letter `e` in either case and a whole number. A letter
without a number is left where it is. -/
def spanExponent (cs : List Char) : Int × List Char :=
  match cs with
  | c :: rest => if c = 'e' ∨ c = 'E' then (signedExponent? rest).getD (0, cs) else (0, cs)
  | [] => (0, [])

/-- The number that whole digits, fraction digits and an exponent make. -/
def assemble (negative : Bool) (whole fraction : List Char) (exponent : Int) : Binary64 :=
  .ofDecimal negative (Magnitude.digitsValue (whole ++ fraction)) (exponent - fraction.length)

/-- A decimal that is the whole text: digits before or after the point, an exponent or none. -/
def decimal? (negative : Bool) (cs : List Char) : Option Binary64 :=
  let (whole, cs) := spanDecimal cs
  let (fraction, cs) : List Char × List Char :=
    match cs with
    | '.' :: rest => spanDecimal rest
    | _ => ([], cs)
  if whole.isEmpty && fraction.isEmpty then none else
    match spanExponent cs with
    | (exponent, []) => some (assemble negative whole fraction exponent)
    | _ => none

/-- The value of a digit in bases up to sixteen. -/
def digitValue? (c : Char) : Option Nat :=
  if c.isDigit then some (c.toNat - '0'.toNat)
  else if 'a' ≤ c.toLower ∧ c.toLower ≤ 'f' then some (c.toLower.toNat - 'a'.toNat + 10)
  else none

/-- The value of the digits of a base; nothing when one of them is no digit of the base. -/
def valueIn? (base : Nat) (cs : List Char) : Option Nat :=
  cs.foldlM (fun n c ↦ do
    let d ← digitValue? c
    if d < base then some (base * n + d) else none) 0

/-- The numeral after a sign or none. -/
def unsigned? (negative : Bool) (cs : List Char) : Option Binary64 :=
  if cs = "Infinity".toList then some (.infinity negative) else decimal? negative cs

/-- The number that a text stands for, when it stands for one. A sign may stand before decimals
and `Infinity` only. -/
def ofText? (text : String) : Option Binary64 :=
  match Text.trim text.toList with
  | [] => some 0
  | '-' :: cs => unsigned? true cs
  | '+' :: cs => unsigned? false cs
  | '0' :: mark :: d :: ds =>
    match [('x', 16), ('o', 8), ('b', 2)].lookup mark.toLower with
    | some base => (valueIn? base (d :: ds)).map .ofNat
    | none => unsigned? false ('0' :: mark :: d :: ds)
  | cs => unsigned? false cs

end IndexSnapshot.Number
