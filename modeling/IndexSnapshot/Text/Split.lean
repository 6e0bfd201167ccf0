/-!
# Splitting a text at marks
-/

namespace IndexSnapshot.Text

/-- The pieces of a text between the characters that `isMark` picks out; always one piece more
than there are marks. -/
def splitAtMarks (isMark : Char → Bool) : List Char → List (List Char)
  | [] => [[]]
  | c :: cs =>
    if isMark c then [] :: splitAtMarks isMark cs
    else
      match splitAtMarks isMark cs with
      | [] => [[c]]
      | piece :: pieces => (c :: piece) :: pieces

/-- The text before the first mark, and the text after it when there is a mark. -/
def cutAt (isMark : Char → Bool) (cs : List Char) : List Char × Option (List Char) :=
  match cs.dropWhile (fun c ↦ !isMark c) with
  | [] => (cs, none)
  | _ :: rest => (cs.takeWhile (fun c ↦ !isMark c), some rest)

/-- The text before the last mark, when there is a mark, and the text after it. -/
def cutAtLast (isMark : Char → Bool) (cs : List Char) : Option (List Char) × List Char :=
  let (after, before) := cutAt isMark cs.reverse
  (before.map List.reverse, after.reverse)

end IndexSnapshot.Text
