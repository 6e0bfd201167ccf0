import IndexSnapshot.Number.Binary64

/-!
# The shortest decimal form of a number

A number is written with the fewest decimal digits that read back as it; of several such digit
strings the one nearest to the number, and of two equally near ones the even one. Numbers from
`10 ^ -7` up to, and not including, `10 ^ 21` are written without an exponent.
-/

namespace IndexSnapshot.Number

/-- The decimals that round to a positive number: all between `low` and `high`, each end included
exactly when `closed` holds. The three bounds are in quarters of a unit. -/
structure Interval where
  low : Nat
  value : Nat
  high : Nat
  closed : Bool

/-- The interval of a positive number of the 64-bit binary format, given in units. Above a power
of two the numbers lie twice as far apart as below it. -/
def Interval.ofUnits (units : Nat) : Interval :=
  let scale := bitLength units - 53
  let gap := Nat.pow 2 scale
  let below := if 0 < scale ∧ units = Nat.pow 2 (scale + 52) then gap else 2 * gap
  { low := 4 * units - below
    value := 4 * units
    high := 4 * units + 2 * gap
    closed := units / gap % 2 = 0 }

/-- A grid of decimals: the whole multiples of `10 ^ exponent`, read in quarters of a unit. The
fraction `num / den` is one step of the grid. -/
structure Grid where
  num : Nat
  den : Nat

/-- The grid of the multiples of `10 ^ exponent`. -/
def Grid.ofExponent (exponent : Int) : Grid :=
  if 0 ≤ exponent then ⟨Nat.pow 10 exponent.toNat * (4 * Binary64.one), 1⟩
  else ⟨4 * Binary64.one, Nat.pow 10 (-exponent).toNat⟩

/-- The grid point with the given count of steps lies in the interval. -/
def Grid.contains (g : Grid) (i : Interval) (count : Nat) : Bool :=
  let point := count * g.num
  if i.closed then i.low * g.den ≤ point && point ≤ i.high * g.den
  else i.low * g.den < point && point < i.high * g.den

/-- Of the two grid points on either side of the number the one that lies in the interval; of
two, the nearer, and of two equally near ones the even one. -/
def Grid.point? (g : Grid) (i : Interval) : Option Nat :=
  let down := i.value * g.den / g.num
  match g.contains i down, g.contains i (down + 1) with
  | false, false => none
  | true, false => some down
  | false, true => some (down + 1)
  | true, true => some (divRound (i.value * g.den) g.num)

/-- The position of the first digit: the exponent of the greatest power of ten that is not above
the number. Every positive number has a digit within `400` places of the point. -/
def leadingExponent (units : Nat) : Int :=
  ((Nat.toDigits 10 (units * Nat.pow 10 400 / Binary64.one)).length : Int) - 401

/-- The first of the grids of `tried + 1`, `tried + 2`, … digits that has a point in the interval,
with `left` grids still to try. -/
def shortestFrom (i : Interval) (leading : Int) (tried : Nat) : Nat → Nat × Int
  | 0 => (i.value / (4 * Binary64.one), 0)
  | left + 1 =>
    let exponent := leading - tried
    match (Grid.ofExponent exponent).point? i with
    | some n => (n, exponent)
    | none => shortestFrom i leading (tried + 1) left

/-- The digits and the exponent of the shortest decimal of a positive number. -/
def shortest (units : Nat) : Nat × Int :=
  shortestFrom (Interval.ofUnits units) (leadingExponent units) 0 17

/-- The digits of a decimal without the zeros at their end, and how many zeros there were. -/
def stripZeros (ds : List Char) : List Char × Nat :=
  let kept := (ds.reverse.dropWhile (· = '0')).reverse
  (kept, ds.length - kept.length)

/-- Digits written out: `n` is the number of digits before the point. Up to 21 places before it,
and up to six zeros after it, no exponent is written. -/
def layout (digits : List Char) (n : Int) : String :=
  let k : Int := digits.length
  if k ≤ n ∧ n ≤ 21 then
    String.ofList (digits ++ List.replicate (n - k).toNat '0')
  else if 0 < n ∧ n ≤ 21 then
    String.ofList (digits.take n.toNat ++ '.' :: digits.drop n.toNat)
  else if -6 < n ∧ n ≤ 0 then
    String.ofList ('0' :: '.' :: List.replicate (-n).toNat '0' ++ digits)
  else
    let e := n - 1
    let exponent := (if e < 0 then "-" else "+") ++ toString e.natAbs
    match digits with
    | d :: [] => String.ofList [d] ++ "e" ++ exponent
    | d :: ds => String.ofList (d :: '.' :: ds) ++ "e" ++ exponent
    | [] => exponent

/-- A positive number written in its shortest form. Whole numbers of at most 53 bits are their
own digits. -/
def positiveText (units : Nat) : String :=
  if units % Binary64.one = 0 ∧ units / Binary64.one < Nat.pow 2 53 then
    toString (units / Binary64.one)
  else
    let (value, exponent) := shortest units
    let (digits, zeros) := stripZeros (Nat.toDigits 10 value)
    layout digits (digits.length + zeros + exponent)

end IndexSnapshot.Number

namespace IndexSnapshot.Binary64

/-- The number in its shortest decimal form. Both zeros are written alike. -/
def text : Binary64 → String
  | nan => "NaN"
  | infinity false => "Infinity"
  | infinity true => "-Infinity"
  | negZero => "0"
  | finite units =>
    if units = 0 then "0"
    else if units < 0 then "-" ++ Number.positiveText units.natAbs
    else Number.positiveText units.natAbs

end IndexSnapshot.Binary64
