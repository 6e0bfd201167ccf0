import IndexSnapshot.Number.Magnitude

/-!
# Binary floating point numbers

The numbers of settings and of JSON texts. Every finite number of the 64-bit binary format is a
whole multiple of `2 ^ -1074`, and is held as that multiple, so that comparison, addition and
integer part are exact integer arithmetic, and rounding is the rounding of a quotient of natural
numbers to 53 significant bits.
-/

namespace IndexSnapshot

/-- A number of the 64-bit binary format. -/
inductive Binary64 where
  /-- Not a number. -/
  | nan
  | infinity (negative : Bool)
  /-- The zero of negative sign. -/
  | negZero
  /-- A whole multiple of the smallest positive number `2 ^ -1074`. -/
  | finite (units : Int)
  deriving DecidableEq, Repr

namespace Binary64

/-- How many halvings lead from one to the smallest positive number. -/
def unitBits : Nat := 1074

/-- The number one, in units. -/
def one : Nat := Nat.pow 2 unitBits

/-- The number with a sign and a size in units, the size being already of the format; a size
past the range is infinite. -/
def ofSize (negative : Bool) (size : Nat) : Binary64 :=
  if size < Nat.pow 2 (unitBits + Magnitude.rangeBits) then
    if negative then (if size = 0 then negZero else finite (-size)) else finite size
  else infinity negative

/-- The number nearest to a quotient, a tie going to the even neighbour. -/
def ofQuotient (negative : Bool) (num den : Nat) : Binary64 :=
  ofSize negative (Number.roundSignificant (num * one) den)

/-- The number nearest to a whole number. -/
def ofNat (n : Nat) : Binary64 := ofQuotient false n 1

instance (n : Nat) : OfNat Binary64 n := ⟨ofNat n⟩

/-- The number nearest to `± digits · 10 ^ exponent`. Exponents that lead past the range, or
below half the smallest number, are settled without computing the power. -/
def ofDecimal (negative : Bool) (digits : Nat) (exponent : Int) : Binary64 :=
  let place : Int := (Nat.toDigits 10 digits).length + exponent
  if digits = 0 ∨ place < -330 then ofSize negative 0
  else if 310 < place then infinity negative
  else if 0 ≤ exponent then ofQuotient negative (digits * Nat.pow 10 exponent.toNat) 1
  else ofQuotient negative digits (Nat.pow 10 (-exponent).toNat)

/-- The number that a magnitude is. -/
def ofMagnitude : Magnitude → Binary64
  | .finite n => ofSize false (n * one)
  | .infinite => infinity false

/-- The whole number that a number is, when it is one. -/
def toInt? : Binary64 → Option Int
  | finite units => if units % one = 0 then some (units / one) else none
  | negZero => some 0
  | _ => none

/-- The number is whole. -/
def isInteger (x : Binary64) : Bool := x.toInt?.isSome

/-- The number is above zero. -/
def isPositive : Binary64 → Bool
  | finite units => decide (0 < units)
  | infinity negative => !negative
  | _ => false

/-- The number is a positive integer. -/
def isPositiveInteger (x : Binary64) : Bool := x.isInteger && x.isPositive

/-- A count is not below the number; of what is not a number, no count is. -/
def reachedBy (limit : Binary64) (count : Nat) : Bool :=
  match limit with
  | nan => false
  | infinity negative => negative
  | negZero => true
  | finite units => decide (units ≤ count * one)

/-- The integer part of half the number. -/
def halfFloor : Binary64 → Binary64
  | finite units => finite (units.fdiv (2 * one) * one)
  | x => x

/-- The sum, rounded to the nearest number. -/
def add : Binary64 → Binary64 → Binary64
  | nan, _ => nan
  | _, nan => nan
  | infinity s, infinity t => if s = t then infinity s else nan
  | infinity s, _ => infinity s
  | _, infinity t => infinity t
  | negZero, x => x
  | x, negZero => x
  | finite a, finite b =>
    let sum := a + b
    ofSize (decide (sum < 0)) (Number.roundSignificant sum.natAbs 1)

instance : Add Binary64 := ⟨add⟩

end Binary64

end IndexSnapshot
