import IndexSnapshot.Number.Numeral
import IndexSnapshot.Text.Split

/-!
# Numeric hosts

Addresses of four bytes, written as up to four numbers between points in base ten, eight or
sixteen, the last one filling all bytes that are left; and addresses of eight 16-bit pieces,
written in hexadecimal between colons, with `::` for a run of zero pieces and an address of four
bytes allowed at the end.
-/

namespace IndexSnapshot

namespace Ipv4

/-- The pieces of a host between points, a point at the very end aside. -/
def parts (host : List Char) : List (List Char) :=
  match Text.splitAtMarks (· = '.') host with
  | [piece] => [piece]
  | pieces => if pieces.getLast? = some [] then pieces.dropLast else pieces

/-- The number that a piece denotes: behind `0x` in base sixteen, behind another zero in base
eight, else in base ten. Nothing behind the mark of a base is zero. -/
def number? : List Char → Option Nat
  | [] => none
  | ['0'] => some 0
  | '0' :: c :: rest =>
    if c = 'x' ∨ c = 'X' then Number.valueIn? 16 rest else Number.valueIn? 8 (c :: rest)
  | cs => Number.valueIn? 10 cs

/-- The host is meant as a numeric address: its last piece is a number, or made of digits. -/
def isNumeric (host : List Char) : Bool :=
  match (parts host).getLast? with
  | some last => !last.isEmpty && (last.all Char.isDigit || (number? last).isSome)
  | none => false

/-- The value of leading bytes, the most significant first; none may exceed a byte. -/
def bytes? (numbers : List Nat) : Option Nat :=
  numbers.foldlM (fun n b ↦ if b < 256 then some (256 * n + b) else none) 0

/-- The address that a host denotes. -/
def parse? (host : List Char) : Option Nat := do
  let numbers ← (parts host).mapM number?
  if 4 < numbers.length then none
  else
    let last ← numbers.getLast?
    let leading ← bytes? numbers.dropLast
    let free := Nat.pow 256 (5 - numbers.length)
    if last < free then some (leading * free + last) else none

/-- The address in its written form. -/
def text (address : Nat) : List Char :=
  let byte (i : Nat) : List Char := Nat.toDigits 10 (address / Nat.pow 256 i % 256)
  byte 3 ++ '.' :: byte 2 ++ '.' :: byte 1 ++ '.' :: byte 0

end Ipv4

namespace Ipv6

/-- A byte in base ten without a leading zero. -/
def byte? (cs : List Char) : Option Nat :=
  match cs with
  | [] => none
  | '0' :: _ :: _ => none
  | _ => (Number.valueIn? 10 cs).filter (· < 256)

/-- The two pieces that an address of four bytes fills. -/
def embedded? (cs : List Char) : Option (List Nat) :=
  match (Text.splitAtMarks (· = '.') cs).mapM byte? with
  | some [a, b, c, d] => some [256 * a + b, 256 * c + d]
  | _ => none

/-- The longest run of at most four hexadecimal digits, and the rest. -/
def spanHex (cs : List Char) : List Char × List Char :=
  let digits := (cs.take 4).takeWhile fun c ↦ (Number.digitValue? c).isSome
  (digits, cs.drop digits.length)

/-- The pieces of an address and the place of its `::`, which counts as one piece, from a text
whose front has already given the pieces `done`, the last one first. The supply of steps bounds
how many pieces are read. -/
def pieces? (steps : Nat) (done : List Nat) (gap : Option Nat) (cs : List Char) :
    Option (List Nat × Option Nat) :=
  match steps, cs with
  | _, [] => some (done.reverse, gap)
  | 0, _ => none
  | steps + 1, ':' :: rest =>
    if gap.isSome then none else pieces? steps (0 :: done) (some (done.length + 1)) rest
  | steps + 1, cs =>
    let (digits, rest) := spanHex cs
    let value := (Number.valueIn? 16 digits).getD 0
    match rest with
    | [] => pieces? steps (value :: done) gap []
    | '.' :: _ =>
      if digits.isEmpty || 6 < done.length then none
      else (embedded? cs).map fun pair ↦ (done.reverse ++ pair, gap)
    | ':' :: tail => if tail.isEmpty then none else pieces? steps (value :: done) gap tail
    | _ => none

/-- The address with zero pieces put in at the gap, so that there are eight. -/
def fill? : List Nat × Option Nat → Option (List Nat)
  | (pieces, none) => if pieces.length = 8 then some pieces else none
  | (pieces, some gap) =>
    some (pieces.take gap ++ List.replicate (8 - pieces.length) 0 ++ pieces.drop gap)

/-- The pieces of the address that a text between brackets denotes. -/
def parse? (cs : List Char) : Option (List Nat) := do
  let read ←
    match cs with
    | ':' :: ':' :: rest => pieces? 7 [0] (some 1) rest
    | ':' :: _ => none
    | _ => pieces? 8 [] none cs
  fill? read

/-- The number of zeros at the front. -/
def leadingZeros (pieces : List Nat) : Nat := (pieces.takeWhile (· = 0)).length

/-- The place and the length of the first longest run of zero pieces, looked for from a place on. -/
def longestZeros (place : Nat) : List Nat → Nat × Nat
  | [] => (place, 0)
  | piece :: rest =>
    let here := leadingZeros (piece :: rest)
    let (later, length) := longestZeros (place + 1) rest
    if length ≤ here then (place, here) else (later, length)

/-- Pieces in hexadecimal between colons. -/
def join (pieces : List Nat) : List Char :=
  List.intercalate [':'] (pieces.map (Nat.toDigits 16))

/-- The address in its written form: the first longest run of two or more zero pieces is left
out. -/
def text (pieces : List Nat) : List Char :=
  let (place, length) := longestZeros 0 pieces
  if length < 2 then join pieces
  else join (pieces.take place) ++ ':' :: ':' :: join (pieces.drop (place + length))

end Ipv6

end IndexSnapshot
