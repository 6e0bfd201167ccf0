import IndexSnapshot.Number.Numeral
import IndexSnapshot.Number.Shortest
import IndexSnapshot.Settings.Basic

/-!
# Values of settings as plain text

On the command line a value is a plain text: the words `true` and `false` are flags, a text that
is a numeral is a number, and any other text stands for itself.
-/

namespace IndexSnapshot.SettingValue

/-- The value that a plain text stands for. A text of blanks is no numeral. -/
def ofText (s : String) : SettingValue :=
  if s = "true" then flag true
  else if s = "false" then flag false
  else if Text.trim s.toList = [] then text s
  else
    match Number.ofText? s with
    | some n => number n
    | none => text s

/-- The plain text of a value. -/
def plain : SettingValue → String
  | text s => s
  | number n => n.text
  | flag b => if b then "true" else "false"

end IndexSnapshot.SettingValue
