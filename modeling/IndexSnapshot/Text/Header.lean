/-!
# Values of headers

A text becomes the value of a header of a request: characters that a header cannot hold are left
out, and so are the spaces and tabs at the edges of what remains. A header holds tabs and the
characters of one byte that show something or are controls beyond ASCII.
-/

namespace IndexSnapshot.Text

/-- A character that the value of a header may hold. -/
def isHeaderChar (c : Char) : Bool :=
  c = '\t' || (' ' ≤ c && c ≤ '~') || ('\u0080' ≤ c && c ≤ '\u00ff')

/-- A space or a tab. -/
def isHeaderBlank (c : Char) : Bool := c = ' ' || c = '\t'

/-- The value of a header that a text comes to. -/
def headerValue (cs : List Char) : List Char :=
  (((cs.filter isHeaderChar).dropWhile isHeaderBlank).reverse.dropWhile isHeaderBlank).reverse

theorem isHeaderChar_of_mem_headerValue {c : Char} {cs : List Char} (h : c ∈ headerValue cs) :
    isHeaderChar c = true := by
  have h := (List.dropWhile_sublist _).mem (List.mem_reverse.1 h)
  have h := (List.dropWhile_sublist _).mem (List.mem_reverse.1 h)
  exact (List.mem_filter.1 h).2

end IndexSnapshot.Text
