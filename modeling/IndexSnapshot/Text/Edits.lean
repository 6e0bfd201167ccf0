/-!
# Words that are nearly the same

Two words are a number of edits apart when that many edits turn one into the other: leaving a
character out, putting one in, changing one, or swapping two neighbours. Characters are gone
through once, so that no edit touches what another has made; equal characters in front need none.
-/

namespace IndexSnapshot.Text

/-- At most so many edits turn the first word into the second. -/
def isWithin (n : Nat) (a b : List Char) : Bool :=
  match a, b with
  | [], b => b.length ≤ n
  | a, [] => a.length ≤ n
  | x :: a, y :: b =>
    if x = y then isWithin n a b
    else
      match n with
      | 0 => false
      | n + 1 =>
        isWithin n a (y :: b) || isWithin n (x :: a) b || isWithin n a b ||
          match a, b with
          | x' :: a', y' :: b' => x = y' && y = x' && isWithin n a' b'
          | _, _ => false
termination_by a.length + b.length

/-- The number of edits between two words, when it is not above a bound. -/
def edits? (bound : Nat) (a b : List Char) : Option Nat :=
  (List.range (bound + 1)).find? fun n ↦ isWithin n a b

end IndexSnapshot.Text
