import IndexSnapshot.Number.Numeral
import IndexSnapshot.Text.Split

/-!
# Tables of characters

What is known of characters is written down in tables, a record for each run of characters of which
the same is known. All numbers are hexadecimal. A record begins with the distance of its first
character from that of the record before. Then may follow the number of its characters behind a
sign: `+` and `~` for characters in a row, `*` for every other character. Behind `=` stands what is
known.
-/

namespace IndexSnapshot.Domain

/-- A record of a table. -/
structure Record where
  /-- The first character. -/
  first : Nat
  /-- The number of characters. -/
  count : Nat
  /-- The sign before that number. -/
  sign : Char
  /-- What is known of the characters. -/
  value : List Char
  deriving DecidableEq, Repr

namespace Record

/-- The distance between the characters of a record. -/
def stride (r : Record) : Nat := if r.sign = '*' then 2 else 1

/-- The record is about a character. -/
def isAbout (r : Record) (c : Nat) : Bool :=
  r.first ≤ c && (c - r.first) % r.stride = 0 && (c - r.first) / r.stride < r.count

end Record

/-- The number that hexadecimal digits denote; zero if there are others among them. -/
def hexValue (ds : List Char) : Nat := (Number.valueIn? 16 ds).getD 0

/-- A record as it is written, and the first character of the record before. -/
def readRecord (previous : Nat) (text : List Char) : Record :=
  let (head, value) := Text.cutAt (· = '=') text
  let gap := head.takeWhile Char.isAlphanum
  match head.dropWhile Char.isAlphanum with
  | [] => ⟨previous + hexValue gap, 1, '+', value.getD []⟩
  | sign :: count => ⟨previous + hexValue gap, hexValue count, sign, value.getD []⟩

/-- Records as they are written, and the first character of the record before them. -/
def readRecordsFrom (previous : Nat) : List (List Char) → List Record
  | [] => []
  | text :: texts =>
    let r := readRecord previous text
    r :: readRecordsFrom r.first texts

/-- A table as it is written, with blanks and line ends between its records. -/
def readTable (text : String) : List Record :=
  readRecordsFrom 0 <|
    (Text.splitAtMarks (fun c ↦ c = ' ' || c = '\n') text.toList).filter fun word ↦ !word.isEmpty

/-- The numbers with commas between them that a record knows. -/
def Record.numbers (r : Record) : List Nat :=
  if r.value.isEmpty then [] else (Text.splitAtMarks (· = ',') r.value).map hexValue

/-- The record about a character. -/
def record? (table : List Record) (c : Char) : Option Record :=
  table.find? fun r ↦ r.isAbout c.toNat

/-- A table has a record about a character. -/
def isListed (table : List Record) (c : Char) : Bool := (record? table c).isSome

end IndexSnapshot.Domain
