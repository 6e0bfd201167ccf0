import IndexSnapshot.Json.Basic
import IndexSnapshot.Number.Shortest

/-!
# Writing JSON

Two forms: a compact one without any blanks, and one with a line for each item and two spaces of
indentation for each level. Strings escape the quote, the reverse solidus, the control characters
below the space, and halves of surrogate pairs that stand alone; numbers are written in their
shortest decimal form, and those that JSON cannot write as `null`.
-/

namespace IndexSnapshot.Json

open Text (Encoded)

/-- A hexadecimal digit, in small letters. -/
def hexDigit (n : Nat) : Char := Nat.digitChar n

/-- A character inside a quoted string. -/
def escape (c : Char) : List Char :=
  if c = '"' then ['\\', '"']
  else if c = '\\' then ['\\', '\\']
  else if c = '\u0008' then ['\\', 'b']
  else if c = '\t' then ['\\', 't']
  else if c = '\n' then ['\\', 'n']
  else if c = '\u000c' then ['\\', 'f']
  else if c = '\r' then ['\\', 'r']
  else if c < ' ' then ['\\', 'u', '0', '0', hexDigit (c.toNat / 16), hexDigit (c.toNat % 16)]
  else [c]

/-- A piece of a string inside quotes. Half of a surrogate pair is escaped by its number. -/
def escapePiece : Text.Piece → List Char
  | .char c => escape c
  | .half u =>
    ['\\', 'u', hexDigit (u.toNat / 4096), hexDigit (u.toNat / 256 % 16),
      hexDigit (u.toNat / 16 % 16), hexDigit (u.toNat % 16)]

section

variable {τ : Type} [Encoded τ]

/-- A string in quotes. -/
def quote (s : τ) : List Char :=
  '"' :: (Text.pieces (Encoded.units s)).flatMap escapePiece ++ ['"']

/-- A number; what is no finite number is written as `null`. -/
def numeral : Binary64 → List Char
  | .nan => "null".toList
  | .infinity _ => "null".toList
  | n => n.text.toList

mutual

/-- The compact form of a value. -/
def compactChars : Json τ → List Char
  | null => "null".toList
  | bool b => (if b then "true" else "false").toList
  | number n => numeral n
  | string s => quote s
  | array items => '[' :: compactItems items ++ [']']
  | object members => '\x7b' :: compactMembers members ++ ['\x7d']

/-- The items of a list with commas between them. -/
def compactItems : List (Json τ) → List Char
  | [] => []
  | [v] => compactChars v
  | v :: vs => compactChars v ++ ',' :: compactItems vs

/-- The members of an object with commas between them. -/
def compactMembers : List (τ × Json τ) → List Char
  | [] => []
  | [(name, v)] => quote name ++ ':' :: compactChars v
  | (name, v) :: rest => quote name ++ ':' :: compactChars v ++ ',' :: compactMembers rest

end

/-- The start of a line at a level of indentation. -/
def newLine (level : Nat) : List Char := '\n' :: List.replicate (2 * level) ' '

mutual

/-- The indented form of a value that stands at a level. An empty list or object is written
without a line break. -/
def indentedChars (level : Nat) : Json τ → List Char
  | array [] => ['[', ']']
  | array (v :: vs) => '[' :: indentedItems (level + 1) (v :: vs) ++ newLine level ++ [']']
  | object [] => ['\x7b', '\x7d']
  | object (m :: ms) =>
    '\x7b' :: indentedMembers (level + 1) (m :: ms) ++ newLine level ++ ['\x7d']
  | null => "null".toList
  | bool b => (if b then "true" else "false").toList
  | number n => numeral n
  | string s => quote s

/-- The items of a list, a line each. -/
def indentedItems (level : Nat) : List (Json τ) → List Char
  | [] => []
  | [v] => newLine level ++ indentedChars level v
  | v :: vs => newLine level ++ indentedChars level v ++ ',' :: indentedItems level vs

/-- The members of an object, a line each. -/
def indentedMembers (level : Nat) : List (τ × Json τ) → List Char
  | [] => []
  | [(name, v)] => newLine level ++ quote name ++ ':' :: ' ' :: indentedChars level v
  | (name, v) :: rest =>
    newLine level ++ quote name ++ ':' :: ' ' :: indentedChars level v ++
      ',' :: indentedMembers level rest

end

/-- The compact text of a value. -/
def compact (v : Json τ) : String := String.ofList (compactChars v)

/-- The text of a value with an indentation of two spaces a level. -/
def indented (v : Json τ) : String := String.ofList (indentedChars 0 v)

end

end IndexSnapshot.Json
