import IndexSnapshot.Number.Numeral

/-!
# Percent encoding

Characters that a part of a locator cannot hold are written as the bytes of their UTF-8 form, each
as a percent sign and two hexadecimal digits. Which characters those are depends on the part.
-/

namespace IndexSnapshot.Percent

/-- Controls, and everything outside ASCII: no part of a locator holds them. -/
def isControl (c : Char) : Bool := c < ' ' || '~' < c

/-- What a fragment cannot hold. -/
def inFragment (c : Char) : Bool :=
  isControl c || c = ' ' || c = '"' || c = '<' || c = '>' || c = '\x60'

/-- What a query cannot hold. -/
def inQuery (c : Char) : Bool :=
  isControl c || c = ' ' || c = '"' || c = '#' || c = '<' || c = '>'

/-- What a query of a special scheme cannot hold. -/
def inSpecialQuery (c : Char) : Bool := inQuery c || c = '\''

/-- What a segment of a path cannot hold. -/
def inPath (c : Char) : Bool :=
  inQuery c || c = '?' || c = '\x60' || c = '\x7b' || c = '\x7d'

/-- What a user name or a password cannot hold. -/
def inUserinfo (c : Char) : Bool :=
  inPath c || c = '/' || c = ':' || c = ';' || c = '=' || c = '@' || c = '[' || c = '\\' ||
    c = ']' || c = '^' || c = '|'

/-- A hexadecimal digit, in capitals. -/
def hexDigit (n : Nat) : Char := (Nat.digitChar n).toUpper

/-- A byte in percent encoding. -/
def encodeByte (b : UInt8) : List Char := ['%', hexDigit (b.toNat / 16), hexDigit (b.toNat % 16)]

/-- A character in percent encoding. -/
def encodeChar (c : Char) : List Char := (String.utf8EncodeChar c).flatMap encodeByte

/-- The text with the characters of a set in percent encoding. -/
def encode (isEncoded : Char → Bool) (cs : List Char) : List Char :=
  cs.flatMap fun c ↦ if isEncoded c then encodeChar c else [c]

/-- The byte that two hexadecimal digits denote. -/
def byte? (high low : Char) : Option UInt8 := do
  let h ← Number.digitValue? high
  let l ← Number.digitValue? low
  return UInt8.ofNat (16 * h + l)

/-- The bytes of a text, a percent sign and two digits being one byte. A percent sign without two
digits behind it stands for itself. -/
def decodeBytes : List Char → List UInt8
  | '%' :: a :: b :: rest =>
    match byte? a b with
    | some byte => byte :: decodeBytes rest
    | none => String.utf8EncodeChar '%' ++ decodeBytes (a :: b :: rest)
  | c :: rest => String.utf8EncodeChar c ++ decodeBytes rest
  | [] => []

/-- Every percent sign has two hexadecimal digits behind it. -/
def isWellFormed : List Char → Bool
  | '%' :: a :: b :: rest => (byte? a b).isSome && isWellFormed rest
  | c :: rest => c ≠ '%' && isWellFormed rest
  | [] => true

/-- The text that bytes encode in UTF-8. -/
def ofUtf8? (bytes : List UInt8) : Option (List Char) :=
  (ByteArray.utf8Decode? bytes.toByteArray).map Array.toList

/-- The text without percent encoding; nothing when a percent sign stands alone or the bytes are
not UTF-8. -/
def decode? (cs : List Char) : Option (List Char) :=
  if isWellFormed cs then ofUtf8? (decodeBytes cs) else none

end IndexSnapshot.Percent
