import IndexSnapshot.Json.Printer
import IndexSnapshot.Log.Record

/-!
# Log lines

A record becomes a line: the clock, the level in its colour, the message, and behind them the
fields as a compact JSON object. That object holds no line break, and a line without fields ends
with the message. Only a record whose message would have to tell an object that has no text cannot
be written.
-/

namespace IndexSnapshot.Log

/-- The line with fields behind it, when there are any. Of fields of one name the last one
counts. -/
def withFields (line : String) (fields : List (String × Json)) : String :=
  match fields with
  | [] => line
  | _ => line ++ " " ++ (Json.ofPairs fields).compact

/-- The member by which an object would tell its text itself. Data cannot do that, so that an
object with this member has no text. -/
def textMember : String := "toString"

mutual

/-- The plain text of a value: texts stand for themselves, and lists are their items with commas
between them. What an object holds is not told. -/
def plainText? : Json → Option String
  | .null => some "null"
  | .bool b => some (if b then "true" else "false")
  | .number n => some n.text
  | .string s => some s
  | .array items => (plainItems? items).map (String.intercalate ",")
  | .object members =>
    if (members.lookup textMember).isSome then none else some "[object Object]"

/-- The plain texts of the items of a list; that of `null` is empty. -/
def plainItems? : List Json → Option (List String)
  | [] => some []
  | .null :: vs => (plainItems? vs).map ("" :: ·)
  | v :: vs => do return (← plainText? v) :: (← plainItems? vs)

end

/-- The value says nothing: it is `null`, `false`, zero, no number, or the empty text. -/
def isVoid : Json → Bool
  | .null => true
  | .bool b => !b
  | .number n => n = .nan || n = .negZero || n = .finite 0
  | .string s => s = ""
  | _ => false

/-- The letters that stand behind a percent sign where a message has a place for a value. -/
def placeLetters : List Char := ['s', 'c', 'd', 'j', 'i', 'f', 'o', 'O', '%']

/-- The message has places for values. -/
def hasPlaces : List Char → Bool
  | '%' :: c :: cs => placeLetters.contains c || hasPlaces (c :: cs)
  | _ :: cs => hasPlaces cs
  | [] => false

/-- The names that no field of a line has: those that the line keeps for its own parts, and one
that stands for the parent of an object. -/
def ownNames : List String := ["level", "message", "timestamp", "__proto__"]

/-- Why a record cannot be written. -/
inductive WriteError where
  /-- The message has to tell an object that has no text. -/
  | noText
  deriving DecidableEq, Repr

/-- The failure in words. -/
def WriteError.message : WriteError → String
  | .noText => "Cannot convert object to primitive value"

/-- What is written of a record. -/
structure Entry where
  message : String
  fields : List (String × Json) := []
  deriving Repr

/-- What is written of a record. A message with places for values is written alone. Fields with the
names that a line keeps are not written, but that a field `message` which says something goes behind
the message. -/
def Record.entry (r : Record) : Except WriteError Entry :=
  match r.fields with
  | none => .ok { message := r.message }
  | some fields =>
    if hasPlaces r.message.toList then .ok { message := r.message }
    else
      let members := (Json.ofPairs fields).members
      let others := members.filter fun (name, _) ↦ !ownNames.contains name
      match (members.lookup "message").filter fun v ↦ !isVoid v with
      | none => .ok ⟨r.message, others⟩
      | some v =>
        match plainText? v with
        | some text => .ok ⟨r.message ++ " " ++ text, others⟩
        | none => .error .noText

/-- A record without a field `message` can be written. -/
theorem exists_entry_of_notMem {r : Record}
    (h : ∀ fields ∈ r.fields, "message" ∉ fields.map Prod.fst) : ∃ e, r.entry = .ok e := by
  unfold Record.entry
  split
  · exact ⟨_, rfl⟩
  · next fields heq =>
    split
    · exact ⟨_, rfl⟩
    · simp [Json.lookup_members_ofPairs_of_notMem (h fields heq)]

/-- The number of the colour that a terminal shows a level in. -/
def Level.colour : Level → String
  | .error => "31"
  | .warn => "33"
  | .info => "32"
  | .debug => "34"

/-- The name of a level in its colour. -/
def Level.coloured (l : Level) : String :=
  "\x1b[" ++ l.colour ++ "m" ++ l.name ++ "\x1b[39m"

/-- The line of an entry, with its line end. -/
def line (clock : String) (l : Level) (e : Entry) : String :=
  withFields ("[" ++ clock ++ "] " ++ l.coloured ++ ": " ++ e.message) e.fields ++ "\n"

end IndexSnapshot.Log
