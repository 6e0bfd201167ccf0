import IndexSnapshot.Domain.Composition
import IndexSnapshot.Domain.Direction
import IndexSnapshot.Domain.Joining
import IndexSnapshot.Domain.Mapping
import IndexSnapshot.Domain.Punycode
import IndexSnapshot.Text.Literal

/-!
# Labels of domain names

The parts of a domain name between its dots. A label in ASCII is kept, and any other is written in
ASCII behind a mark. A label that has the mark already is kept too, but what stands behind the mark
must be the ASCII form of a label that may be written.
-/

namespace IndexSnapshot.Domain

/-- Marks. -/
def markText : String :=
  "300+70 183+7 10e+2d 2e 2+2 3+2 3 49+b 3b+15 25 66+7 9+6 8+2 3+4 27 1f+1b 76+b 45+9 12 19+4
    5+9 a+3 4+5 30+3 7a+31 67+3 4+12 13+7 11+2 1f+3 3b 2+10 19 b+2 1c+6 3e+16 34+2 5 c+3 3b 2+10
    24+2 18+a 42 2+1a 24+2 20 3c+10 19 29+5 3e+19 24+2 1f+3 3b 2+19 24+2 1e+4 3b+2 3+10 19 b+2
    1f+3 49+16 28+2 3f 3+7 13+8 6a 3+9 14+6 50+2 1d 2 2 5+2 33+14 15+2 7+30 39 65+14 2b+4 8+3
    4+3 5+7 a+4 11+c d b+4 2c3+3 3b5+3 20+3 20+2 20+2 44+1e 27 a8+2 24 77+1c f7+5 3e+2b 5b+11
    50+5 34+11 37+9 15+3 21+d 45+e 3e+14 ac+3 4+15 19 7 3+3 c9+3a 3b+5 2d5+21 c1f+3 90 61+20
    24a+6 6f+2 75d6+4 5+a 2a+2 52+2 112 4 5 18+5 9 54+2 34+12 2c+12 1f 27+8 21+d 39+4 33+e 32
    44+e 1a 9+2 2f+3 35 2+3 5+2 7+2 3 2a+5 a+2 ee+8 9+2 4f32 302+10 3dd e3 96+5 68b+f 37+8 ad+2
    23f+4 187+2 9b+b ba+3 38+f 47+4 31+b 50+3 27+e 1e+2 2e d+3 33+e 16+4 5+2 5e+c 12 a1+c 21+4
    3b+2 3+10 19 b+13 d3+12 29 52+14 ff+12 2d+2 54+11 7b+d 72+f 10f+f 104+f 10 2+2 8f+10 13 1d+a
    32+7 8+4 c a+b 39+10 1a5+11 63+25 9f+15 16 43+e 169+4 4bfd+5 40+7 41f 2+42 93+e 4cb9+2
    14c8+5 8+16 18+7 25+4 98+3 7be+37 3b+32 3a f 17+15 565+2b 130+7 1bc+4 5e4+7 74+7"

/-- Marks. -/
def markTable : List Record := readTable markText

/-- A label may be written: it does not begin with a mark, and its first joiner or else its
directions allow it. -/
def isValidLabel (label : List Char) : Bool :=
  !label.head?.any (isListed markTable) &&
    (joinersDecide? label).getD (directionsAgree (label.map direction))

/-- The mark of labels that stand for others. -/
def asciiMark : List Char := "xn--".toList

/-- The text is in ASCII. -/
def isAsciiText (cs : List Char) : Bool := cs.all Punycode.isAscii

/-- What follows the mark of a label stands for a label: for one in its final form that may be
written. -/
def standsForLabel (cs : List Char) : Bool :=
  (Punycode.decode? cs).any fun label ↦
    map? label = some label && compose label = label && isValidLabel label

/-- The ASCII form of a label whose characters have their final form. -/
def labelToAscii? (label : List Char) : Option (List Char) :=
  match Text.strip? asciiMark label with
  | some rest => if isAsciiText label && standsForLabel rest then some label else none
  | none =>
    if isAsciiText label then some label
    else if isValidLabel label then some (asciiMark ++ Punycode.encode label)
    else none

end IndexSnapshot.Domain
