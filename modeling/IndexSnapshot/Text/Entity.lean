/-!
# Character entities

The five entities that pages use for the characters that markup gives a meaning to. They are
decoded one entity after the other, the ampersand last, so that what an ampersand entity leaves
behind is never taken for a further entity.
-/

namespace IndexSnapshot.Text

/-- The entities without their ampersand, and what they stand for, in the order of decoding. -/
def entities : List (String × Char) :=
  [("lt;", '<'), ("gt;", '>'), ("quot;", '"'), ("#39;", '\''), ("amp;", '&')]

/-- The text with every occurrence of one entity replaced, from left to right. -/
def replaceEntity (name : List Char) (meaning : Char) (cs : List Char) : List Char :=
  match cs with
  | [] => []
  | c :: cs =>
    if c = '&' ∧ name.isPrefixOf cs then
      meaning :: replaceEntity name meaning (cs.drop name.length)
    else c :: replaceEntity name meaning cs
termination_by cs.length
decreasing_by
  · simp only [List.length_cons, List.length_drop]; omega
  · simp only [List.length_cons]; omega

/-- The text with all its entities replaced. -/
def decodeEntities (cs : List Char) : List Char :=
  entities.foldl (fun cs (name, meaning) ↦ replaceEntity name.toList meaning cs) cs

end IndexSnapshot.Text
