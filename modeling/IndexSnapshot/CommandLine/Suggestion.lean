import IndexSnapshot.Text.Edits
import IndexSnapshot.Text.Units

/-!
# Suggestions for mistyped words

A word that is unknown may be a known word with a few letters wrong. Known words are suggested if
they are at most three edits away and more than two fifths of the letters are right; of those, the
ones with the fewest edits.
-/

namespace IndexSnapshot.CommandLine

/-- How many letters may be wrong. -/
def maxEdits : Nat := 3

/-- The letters of a word, as many as it has 16-bit units. -/
def letters (word : String) : List Char :=
  word.toList.flatMap fun c ↦ List.replicate (Text.units c) c

/-- The number of edits between a word and a known word that is like it. -/
def likeness? (word known : List Char) : Option Nat :=
  if known.length ≤ 1 then none
  else
    (Text.edits? maxEdits word known).filter fun n ↦
      let length := max word.length known.length
      2 * length < 5 * (length - n)

/-- The known words that are most like a word, in alphabetical order. -/
def similar (word : String) (known : List String) : List String :=
  let found := known.eraseDups.filterMap fun k ↦
    (likeness? (letters word) (letters k)).map fun n ↦ (n, k)
  match (found.map Prod.fst).min? with
  | none => []
  | some least =>
    ((found.filter fun (n, _) ↦ n = least).map Prod.snd).mergeSort fun a b ↦ a ≤ b

/-- The known words that are most like a word. If the word begins with two dashes, it is compared
without them, and so are the known words without their first two characters. -/
def suggestions (word : String) (known : List String) : List String :=
  if "--".isPrefixOf word then
    let bare (w : String) : String := String.ofList (w.toList.drop 2)
    (similar (bare word) (known.map bare)).map fun w ↦ "--" ++ w
  else similar word known

/-- The line that makes suggestions; nothing when there is nothing to suggest. -/
def suggestionLine : List String → String
  | [] => ""
  | [w] => "\n(Did you mean " ++ w ++ "?)"
  | ws => "\n(Did you mean one of " ++ String.intercalate ", " ws ++ "?)"

end IndexSnapshot.CommandLine
