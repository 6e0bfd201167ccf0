import IndexSnapshot.Domain.Records

/-!
# Joiners

Two characters that show nothing are allowed in some scripts: one that keeps letters from being
joined, and one that joins them. Either may stand behind a mark that silences a vowel, and the
first also between letters that would be joined without it. The first joiner in a label decides
whether the label may be written.
-/

namespace IndexSnapshot.Domain

/-- Letters that are joined with their neighbours: `L` with the one behind, `R` with the one before,
`D` with both. -/
def joiningText : String :=
  "620=D 2+4=R 4=D 1=R 1=D 1=R 1+5=D 5+4=R 4+d=D e+7=D 7=R 1+2=D 25+2=D 3+3=R 8+f=D f+12=R
    12+26=D 26=R 1+2=D 2+9=R 9=D 1=R 1=D 1=R 1+2=D 2+2=R 3=R 19+2=R c+3=D 5=D 11=R 2+3=D 3+5=R
    5+4=D 4=R 1+9=D 9=R 1=D 1=R 1=D 1=R 1+2=D 2=R 1e=R 1+b=D b+3=R 3+b=D f4+4=D 4=R 1=D 4b=D
    2+8=D 8+3=R f5d=D 19+58=D 60+29=D 2a=D 8f96+32=D 32=L"

/-- Letters that are joined with their neighbours. -/
def joiningTable : List Record := readTable joiningText

/-- How a letter is joined; nothing if it is not. -/
def joining (c : Char) : List Char := (record? joiningTable c).elim [] Record.value

/-- A letter that is joined with the one behind it. -/
def joinsBehind (c : Char) : Bool := joining c ∈ [['L'], ['D']]

/-- A letter that is joined with the one before it. -/
def joinsBefore (c : Char) : Bool := joining c ∈ [['R'], ['D']]

/-- The character that keeps letters from being joined. -/
def nonJoiner : Char := '\u200c'

/-- The character that joins letters. -/
def joiner : Char := '\u200d'

/-- Marks that silence a vowel. -/
def silencerText : String :=
  "94d 80 80 80 80 80 80 80 6e+2 12 7d 70 80 ca b5+2 6db 20 9e 28e e4 66+2 48+2 118d 7a87 26 98
    8f 6d 136 f7 5e52 607 39 3a 7a+2 8d 75 b5 63 f5 80 fd 80 77 75 10e 104+2 a3 54 13 52 1a6
    105+2 53"

/-- Marks that silence a vowel. -/
def silencerTable : List Record := readTable silencerText

/-- The character is a joiner of either kind. -/
def isJoiner (c : Char) : Bool := c = nonJoiner || c = joiner

/-- A joiner of either kind may stand between two texts. -/
def mayStand (c : Char) (before after : List Char) : Bool :=
  before.getLast?.any (isListed silencerTable) ||
    (c = nonJoiner && before.any joinsBehind && after.any joinsBefore)

/-- What the first joiner in a label decides about it; nothing if there is none. -/
def joinersDecide? (label : List Char) : Option Bool :=
  match label.dropWhile fun c ↦ !isJoiner c with
  | c :: after => some (mayStand c (label.takeWhile fun c ↦ !isJoiner c) after)
  | [] => none

end IndexSnapshot.Domain
