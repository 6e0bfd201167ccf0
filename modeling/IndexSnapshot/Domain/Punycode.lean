import IndexSnapshot.Text.Split

/-!
# Letters beyond ASCII in ASCII

A label with letters beyond ASCII is written as its ASCII letters, a hyphen, and digits that tell
which other letters stand where: these are put in from the smallest to the largest, and for each a
number tells how many places have been passed since the one before, over and over the text. The
numbers have digits of base 36, the least one first; how many digits a number takes depends on a
bias, which follows the sizes of the numbers so far.
-/

namespace IndexSnapshot.Domain.Punycode

/-- The number of digits. -/
def base : Nat := 36

/-- The bound for the last digit of a number, at a place that counts up by `base`. -/
def threshold (bias place : Nat) : Nat :=
  if place ≤ bias then 1 else if bias + 26 ≤ place then 26 else place - bias

theorem threshold_pos (bias place : Nat) : 1 ≤ threshold bias place := by
  unfold threshold
  split
  · omega
  · split <;> omega

theorem threshold_le (bias place : Nat) : threshold bias place ≤ 26 := by
  unfold threshold
  split
  · omega
  · split <;> omega

/-- How often a number is divided until it is small, in steps of `base`, and what is left. -/
def shrink (steps n : Nat) : Nat × Nat :=
  if 455 < n then shrink (steps + base) (n / 35) else (steps, n)
termination_by n
decreasing_by omega

/-- The bias after a number, which was the first one or not, in a text that has so many letters
now. -/
def adapt (number letters : Nat) (isFirst : Bool) : Nat :=
  let n := if isFirst then number / 700 else number / 2
  let (steps, rest) := shrink 0 (n + n / letters)
  steps + base * rest / (rest + 38)

/-- The digit of a value: letters, and then the decimal digits. -/
def digit (n : Nat) : Char :=
  if n < 26 then Char.ofNat ('a'.toNat + n) else Char.ofNat ('0'.toNat + n - 26)

/-- The value of a digit. -/
def digitValue? (c : Char) : Option Nat :=
  if 'a' ≤ c ∧ c ≤ 'z' then some (c.toNat - 'a'.toNat)
  else if c.isDigit then some (c.toNat - '0'.toNat + 26)
  else none

/-! ### Writing -/

/-- The digits of a number, from a place on. -/
def digits (bias place n : Nat) : List Char :=
  let t := threshold bias place
  if n < t then [digit n]
  else digit (t + (n - t) % (base - t)) :: digits bias (place + base) ((n - t) / (base - t))
termination_by n
decreasing_by
  have hpos := threshold_pos bias place
  have hdiv := Nat.div_le_self (n - threshold bias place) (base - threshold bias place)
  omega

/-- What is written so far, the places passed since the last letter put in, the bias, and the
number of letters that are in. -/
structure Writing where
  written : List Char
  passed : Nat
  bias : Nat
  letters : Nat
  deriving DecidableEq, Repr

/-- Passes a letter while letters of a code are put in, so many letters being ASCII. -/
def pass (ascii code : Nat) (w : Writing) (c : Char) : Writing :=
  if c.toNat < code then { w with passed := w.passed + 1 }
  else if c.toNat = code then
    { written := w.written ++ digits w.bias base w.passed
      passed := 0
      bias := adapt w.passed (w.letters + 1) (w.letters = ascii)
      letters := w.letters + 1 }
  else w

/-- Puts in the letters of the codes given, from the smallest up, `next` being the least code that
has not been gone through. -/
def putIn (label : List Char) (ascii next : Nat) (w : Writing) : List Nat → Writing
  | [] => w
  | code :: codes =>
    let w := { w with passed := w.passed + (code - next) * (w.letters + 1) }
    let w := label.foldl (pass ascii code) w
    putIn label ascii (code + 1) { w with passed := w.passed + 1 } codes

/-- The character is an ASCII one. -/
def isAscii (c : Char) : Bool := c.toNat < 128

/-- The codes beyond ASCII in a label, from the smallest up, each once. -/
def codes (label : List Char) : List Nat :=
  (((label.filter fun c ↦ !isAscii c).map Char.toNat).mergeSort fun m n ↦ m ≤ n).eraseDups

/-- The ASCII form of a label. -/
def encode (label : List Char) : List Char :=
  let plain := label.filter isAscii
  let start := if plain.isEmpty then [] else plain ++ ['-']
  (putIn label plain.length 128 ⟨start, 0, 72, plain.length⟩ (codes label)).written

/-! ### Reading -/

/-- Adds a number to a sum, the digits of it counting from a place and a weight on, and gives what
follows the number. -/
def number? (bias place weight sum : Nat) : List Char → Option (Nat × List Char)
  | [] => none
  | c :: cs => do
    let d ← digitValue? c
    let sum := sum + d * weight
    if d < threshold bias place then return (sum, cs)
    else number? bias (place + base) (weight * (base - threshold bias place)) sum cs

theorem length_lt_of_number? {bias place weight sum n : Nat} {cs rest : List Char}
    (h : number? bias place weight sum cs = some (n, rest)) : rest.length < cs.length := by
  induction cs generalizing place weight sum with
  | nil => cases h
  | cons c cs ih =>
    rw [number?] at h
    obtain ⟨d, _, h⟩ := Option.bind_eq_some_iff.1 h
    dsimp only at h
    split at h
    · cases h
      exact Nat.lt_succ_self _
    · exact Nat.lt_succ_of_lt (ih h)

/-- Puts letters into a text as numbers tell, of which the last one ended at a place of a text with
the letters so far, all of them below a code. -/
def putBack? (letters : List Char) (code place bias : Nat) (cs : List Char) :
    Option (List Char) :=
  match cs with
  | [] => some letters
  | c :: cs =>
    match _h : number? bias base 1 place (c :: cs) with
    | none => none
    | some (sum, rest) =>
      let size := letters.length + 1
      let code := code + sum / size
      let spot := sum % size
      if code.isValidChar then
        putBack? (letters.take spot ++ Char.ofNat code :: letters.drop spot) code (spot + 1)
          (adapt (sum - place) size (place = 0)) rest
      else none
termination_by cs.length
decreasing_by exact length_lt_of_number? _h

/-- The label of an ASCII form. -/
def decode? (cs : List Char) : Option (List Char) :=
  match Text.cutAtLast (· = '-') cs with
  | (some plain, rest) => putBack? plain 128 0 72 rest
  | (none, rest) => putBack? [] 128 0 72 rest

end IndexSnapshot.Domain.Punycode
