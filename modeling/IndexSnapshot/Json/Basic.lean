import IndexSnapshot.Number.Binary64
import IndexSnapshot.Text.Utf16

/-!
# JSON values

The strings of a value are texts, unless another type of strings is given: what a JSON text spells
may hold halves of surrogate pairs that stand alone, and its strings are strings of 16-bit units.

The members of an object stand in a fixed order: first those whose name is an index, that is, the
decimal form of a number below `2 ^ 32 - 1`, from the smallest up, and after them the others in
the order in which their names were first given. A name that is given again keeps its place and
takes the new value.
-/

namespace IndexSnapshot

/-- A JSON value with strings of a type. -/
inductive Json (τ : Type := String) where
  | null
  | bool (b : Bool)
  | number (n : Binary64)
  | string (s : τ)
  | array (items : List (Json τ))
  | object (members : List (τ × Json τ))
  deriving Repr

namespace Json

open Text (Encoded)

/-- The index that a text denotes, when it denotes one: digits without a leading zero, and a value
below `2 ^ 32 - 1`. -/
def textIndex? (text : String) : Option Nat :=
  match text.toList with
  | [] => none
  | ['0'] => some 0
  | '0' :: _ => none
  | ds =>
    let n := Magnitude.digitsValue ds
    if ds.all Char.isDigit ∧ n < Nat.pow 2 32 - 1 then some n else none

section

variable {τ : Type} [DecidableEq τ] [Encoded τ]

/-- The index that a member's name denotes, when it denotes one. -/
def index? (name : τ) : Option Nat := (Text.text? (Encoded.units name)).bind textIndex?

omit [DecidableEq τ] in
/-- A text is the index that it denotes in every type of strings. -/
theorem index?_ofString (s : String) : index? (Encoded.ofString s : τ) = textIndex? s := by
  rw [index?, Encoded.units_ofString, Text.text?_eq_some_iff.2 rfl, Option.bind_some]

/-- A member of the first name stands before a later member of the second name. -/
def precedes (name other : τ) : Bool :=
  match index? name, index? other with
  | some i, some j => i < j
  | some _, none => true
  | none, _ => false

/-- The members with one more, or with a new value for a name that is there. -/
def insert (name : τ) (value : Json τ) : List (τ × Json τ) → List (τ × Json τ)
  | [] => [(name, value)]
  | (other, old) :: rest =>
    if other = name then (name, value) :: rest
    else if precedes name other then (name, value) :: (other, old) :: rest
    else (other, old) :: insert name value rest

/-- The object that names and values make, given one after the other. -/
def ofPairs (pairs : List (τ × Json τ)) : Json τ :=
  object (pairs.foldl (fun members (name, value) ↦ insert name value members) [])

/-- The value of a member, when the value is an object that has it. -/
def member? (name : τ) : Json τ → Option (Json τ)
  | object members => members.lookup name
  | _ => none

/-- The members of an object; other values have none. -/
def members : Json τ → List (τ × Json τ)
  | object members => members
  | _ => []

/-- A member of another name leaves the value of a name as it is. -/
theorem lookup_insert_of_ne {name other : τ} (h : name ≠ other) (value : Json τ)
    (members : List (τ × Json τ)) :
    (insert other value members).lookup name = members.lookup name := by
  have h : (name == other) = false := beq_eq_false_iff_ne.2 h
  induction members with
  | nil => simp [insert, List.lookup_cons, h]
  | cons member rest ih =>
    obtain ⟨old, v⟩ := member
    rw [insert]
    split
    · next heq =>
      subst heq
      simp [List.lookup_cons, h]
    · split
      · rw [List.lookup_cons, h]
      · rw [List.lookup_cons, ih, List.lookup_cons]

/-- An object has no value under a name that it was not given. -/
theorem lookup_members_ofPairs_of_notMem {name : τ} {pairs : List (τ × Json τ)}
    (h : name ∉ pairs.map Prod.fst) : (ofPairs pairs).members.lookup name = none := by
  suffices ∀ members : List (τ × Json τ),
      (pairs.foldl (fun ms (name, value) ↦ insert name value ms) members).lookup name =
        members.lookup name from this []
  induction pairs with
  | nil => exact fun _ ↦ rfl
  | cons pair rest ih =>
    intro members
    rw [List.map_cons, List.mem_cons, not_or] at h
    rw [List.foldl_cons, ih h.2]
    exact lookup_insert_of_ne h.1 _ _

/-- The string of a string value. -/
def string? : Json τ → Option τ
  | string s => some s
  | _ => none

/-- The number of a number value. -/
def number? : Json τ → Option Binary64
  | number n => some n
  | _ => none

/-- The truth value of a Boolean value. -/
def bool? : Json τ → Option Bool
  | bool b => some b
  | _ => none

end

end Json

end IndexSnapshot
