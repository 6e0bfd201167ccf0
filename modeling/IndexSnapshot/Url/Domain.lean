import IndexSnapshot.Domain.Label
import IndexSnapshot.Text.Letters

/-!
# Domain names

A domain name is brought into ASCII: its characters take their final form, in which letters are
small and composed, and each of its labels is written in ASCII.
-/

namespace IndexSnapshot.Domain

/-- The final form of the characters of a name. For ASCII that is small letters. -/
def prepare? (name : List Char) : Option (List Char) :=
  if isAsciiText name then some (Text.lower name) else (map? name).map compose

/-- The ASCII form of a domain name. -/
def toAscii? (name : List Char) : Option (List Char) := do
  let prepared ← prepare? name
  let labels ← (Text.splitAtMarks (· = '.') prepared).mapM labelToAscii?
  return List.intercalate ['.'] labels

end IndexSnapshot.Domain
