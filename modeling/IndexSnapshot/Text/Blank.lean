/-!
# Blank characters and line ends

Which characters count as blank at the edges of a text, and which ones end a line. Blanks are
the tab, line and page controls, the space separators of Unicode and the byte order mark; the
next-line control `U+0085` and the zero width space are not blank.
-/

namespace IndexSnapshot.Text

/-- A character that ends a line. -/
def isLineEnd (c : Char) : Bool :=
  c = '\n' || c = '\r' || c = '\u2028' || c = '\u2029'

/-- A blank: a tab or line control, a space separator, or the byte order mark. -/
def isBlank (c : Char) : Bool :=
  ('\u0009' ≤ c && c ≤ '\u000d') || c = ' ' || c = '\u00a0' || c = '\u1680' ||
    ('\u2000' ≤ c && c ≤ '\u200a') || c = '\u2028' || c = '\u2029' || c = '\u202f' ||
    c = '\u205f' || c = '\u3000' || c = '\ufeff'

/-- The text without the blanks at its front. -/
def trimStart (cs : List Char) : List Char := cs.dropWhile isBlank

/-- The text without the blanks at its end. -/
def trimEnd (cs : List Char) : List Char := (cs.reverse.dropWhile isBlank).reverse

/-- The text without the blanks at either edge. -/
def trim (cs : List Char) : List Char := trimEnd (trimStart cs)

end IndexSnapshot.Text
