import IndexSnapshot.Text.Blank
import IndexSnapshot.Text.Entity
import IndexSnapshot.Text.Letters

/-!
# Anchors of an index page

An anchor is `<a`, at least one blank, the rest of a start tag that has `href="…"` in it, a text
without `<`, and `</a>`; letter case does not matter. A start tag is made of pieces, each a single
character or a whole quoted value, so that a `>` inside quotes does not end the tag.

The reference of an anchor is the first `href="…"` that stands between two pieces of the tag and
after which the anchor can be completed. Anchors do not overlap; they are found from the front of
the page on, and where none begins the search moves on by one character.
-/

namespace IndexSnapshot

/-- A link of an index page. -/
structure Anchor where
  href : String
  text : String
  deriving DecidableEq, Repr

namespace Anchor

/-- What follows the next quotation mark of a kind. -/
def afterQuote? (quote : Char) (cs : List Char) : Option (List Char) :=
  match cs.dropWhile (· ≠ quote) with
  | [] => none
  | _ :: rest => some rest

/-- What follows the first piece of a start tag; there is none at its end, nor at a quotation
mark that is never closed. -/
def afterPiece? : List Char → Option (List Char)
  | [] => none
  | '>' :: _ => none
  | '"' :: cs => afterQuote? '"' cs
  | '\'' :: cs => afterQuote? '\'' cs
  | _ :: cs => some cs

theorem length_lt_of_afterQuote? {quote : Char} {cs rest : List Char}
    (h : afterQuote? quote cs = some rest) : rest.length < cs.length := by
  unfold afterQuote? at h
  have hle : (cs.dropWhile (· ≠ quote)).length ≤ cs.length :=
    (List.dropWhile_sublist _).length_le
  split at h
  · cases h
  · rename_i heq
    cases h
    rw [heq, List.length_cons] at hle
    omega

theorem length_lt_of_afterPiece? {cs rest : List Char} (h : afterPiece? cs = some rest) :
    rest.length < cs.length := by
  unfold afterPiece? at h
  split at h
  · cases h
  · cases h
  · have := length_lt_of_afterQuote? h
    simp only [List.length_cons]
    omega
  · have := length_lt_of_afterQuote? h
    simp only [List.length_cons]
    omega
  · cases h
    exact Nat.lt_succ_self _

/-- What follows the longest run of pieces. -/
def skipPieces (cs : List Char) : List Char :=
  match _h : afterPiece? cs with
  | some rest => skipPieces rest
  | none => cs
termination_by cs.length
decreasing_by exact length_lt_of_afterPiece? _h

/-- The reference that begins right here, and what follows it. -/
def hrefHere? (cs : List Char) : Option (List Char × List Char) := do
  let rest ← Text.stripWord? "href=\"".toList cs
  let rest' ← afterQuote? '"' rest
  return (rest.takeWhile (· ≠ '"'), rest')

/-- The text of an anchor, and what follows the anchor: the rest of the start tag, its end, a
text without `<` that is not empty, and the end tag. -/
def completion? (cs : List Char) : Option (List Char × List Char) :=
  match skipPieces cs with
  | '>' :: rest =>
    match rest.takeWhile (· ≠ '<') with
    | [] => none
    | text => (Text.stripWord? "</a>".toList (rest.dropWhile (· ≠ '<'))).map fun rest ↦ (text, rest)
  | _ => none

/-- The reference and the text of an anchor whose reference begins right here. -/
def hereToEnd? (cs : List Char) : Option ((List Char × List Char) × List Char) := do
  let (href, rest) ← hrefHere? cs
  let (text, rest) ← completion? rest
  return ((href, text), rest)

/-- The reference and the text of an anchor, looked for from one piece of its start tag to the
next. -/
def inTag? (cs : List Char) : Option ((List Char × List Char) × List Char) :=
  match hereToEnd? cs with
  | some found => some found
  | none =>
    match _h : afterPiece? cs with
    | some rest => inTag? rest
    | none => none
termination_by cs.length
decreasing_by exact length_lt_of_afterPiece? _h

/-- The anchor that begins right here, its reference and text as written, and what follows it. -/
def here? (cs : List Char) : Option ((List Char × List Char) × List Char) :=
  match Text.stripWord? "<a".toList cs with
  | some (c :: rest) => if Text.isBlank c then inTag? (Text.trimStart rest) else none
  | _ => none

theorem length_skipPieces_le (cs : List Char) : (skipPieces cs).length ≤ cs.length := by
  fun_induction skipPieces cs with
  | case1 cs rest h ih =>
    have := length_lt_of_afterPiece? h
    omega
  | case2 => exact Nat.le_refl _

theorem length_lt_of_hereToEnd? {cs rest : List Char} {found : List Char × List Char}
    (h : hereToEnd? cs = some (found, rest)) : rest.length < cs.length := by
  unfold hereToEnd? hrefHere? at h
  simp only [Option.bind_eq_bind, Option.bind_eq_some_iff, Option.pure_def, Option.some.injEq,
    Prod.mk.injEq, Prod.exists] at h
  obtain ⟨href, rest₂, ⟨rest₁, hw, rest', hq, _, rfl⟩, text, rest₃, hc, _, rfl⟩ := h
  have hlt := length_lt_of_afterQuote? hq
  have hword := Text.length_lt_of_stripWord? (by decide) hw
  unfold completion? at hc
  split at hc
  · rename_i tail htail
    have hskip := length_skipPieces_le rest'
    rw [htail, List.length_cons] at hskip
    split at hc
    · cases hc
    · obtain ⟨rest₄, hend, hrest⟩ := Option.map_eq_some_iff.1 hc
      cases hrest
      have hend' := Text.length_lt_of_stripWord? (by decide) hend
      have hdrop : (tail.dropWhile (· ≠ '<')).length ≤ tail.length :=
        (List.dropWhile_sublist _).length_le
      omega
  · cases hc

theorem length_lt_of_inTag? {cs rest : List Char} {found : List Char × List Char}
    (h : inTag? cs = some (found, rest)) : rest.length < cs.length := by
  fun_induction inTag? cs with
  | case1 cs found' heq =>
    cases h
    exact length_lt_of_hereToEnd? heq
  | case2 cs _ rest' hpiece ih =>
    have := length_lt_of_afterPiece? hpiece
    have := ih h
    omega
  | case3 => cases h

theorem length_lt_of_here? {cs rest : List Char} {found : List Char × List Char}
    (h : here? cs = some (found, rest)) : rest.length < cs.length := by
  unfold here? at h
  split at h
  · rename_i c tail heq
    have hword := Text.length_lt_of_stripWord? (by decide) heq
    split at h
    · have hin := length_lt_of_inTag? h
      have hdrop : (Text.trimStart tail).length ≤ tail.length :=
        (List.dropWhile_sublist _).length_le
      simp only [List.length_cons] at hword
      omega
    · cases h
  · cases h

/-- The references and texts of all anchors of a page, as written, in the order of the page. -/
def scan (cs : List Char) : List (List Char × List Char) :=
  match _h : here? cs with
  | some (found, rest) => found :: scan rest
  | none =>
    match cs with
    | [] => []
    | _ :: tail => scan tail
termination_by cs.length
decreasing_by
  · exact length_lt_of_here? _h
  · exact Nat.lt_succ_self _

/-- The anchor with a reference and a text as written: entities are decoded in both, after the
blanks around the text are gone. -/
def ofWritten (href text : List Char) : Anchor :=
  { href := String.ofList (Text.decodeEntities href)
    text := String.ofList (Text.decodeEntities (Text.trim text)) }

/-- The anchors of a page, in the order of the page. -/
def all (page : String) : List Anchor :=
  (scan page.toList).map fun (href, text) ↦ ofWritten href text

end Anchor

end IndexSnapshot
