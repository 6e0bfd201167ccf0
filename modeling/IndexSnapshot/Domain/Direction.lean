import IndexSnapshot.Domain.Records

/-!
# Writing direction

A label with letters of a script that runs from right to left must be of one direction as a whole,
so that it is not shown in pieces that change places. Whether it runs from the left or from the
right is told by its first character; a label from the left may end with one letter from the right.
-/

namespace IndexSnapshot.Domain

/-- What characters do to the writing direction. -/
inductive Direction where
  /-- Letters of scripts from left to right. -/
  | left
  /-- Letters of scripts from right to left. -/
  | right
  | arabicDigit
  | digit
  /-- Marks, which take the direction of their letter. -/
  | mark
  /-- Signs without a direction. -/
  | neutral
  /-- Characters whose direction is not known, which fit into no label with a direction. -/
  | unknown
  deriving DecidableEq, Repr

/-- Characters with their direction: `R` right, `A` Arabic digits, `E` digits, `N` marks, `O`
neutral signs, `U` unknown. All others are of the left. -/
def directionText : String :=
  "0+9=O 9+5=U 5+e=O e+5=U 5+f=O f+a=E a+27=O 41+5d=O 7c=O 1c2+2=O 9+e=O 10+1c=O 1d+11=O
    11+70=N 75=O 81=O 8d+7=N 107+6=O 7+2d=N 2d=R 1=N 1=R 1+2=N 2=R 1+2=N 2=R 1=N 9+25=R 36+2=O
    2=R 1+2=O 2=R 1=O 1=R 1+2=O 2+b=N b=R 2=U 1+2d=R 2d+15=N 15+a=A a=O 1+2=A 2+3=R 3=N 1+65=R
    65+7=N 8=O 1+6=N 6+2=R 2+2=N 2=O 1+4=N 4+2=R 2+a=E a+17=R 17=N 1+1e=R 1e+1b=N 1d+59=R 59+b=N
    b+3a=R 3a+9=N 9+2=R 2+4=O 4=R 3=N 1+18=R 18+4=N 4=R 1+9=N 9=R 1+3=N 3=R 1+5=N 7+29=R 29+3=N
    5+d=R 12+30=U 30+15=R 15=U 1+12=R 12+b=U b+30=N 67=N 2=N 5+8=N c=N 4+7=N 11+2=N 1f=N 3b=N
    5+4=N c=N 15+2=N 10+2=O 9=O 3+5=N 3e=N 5+11=N 2f+2=N 5=N c+2=N 3b=N 5+8=N c=N 15+2=N f=O
    9+8=N 42=N 3=N 2+4=N c+a=N 15+2=N 20=N 3e=N d=N 26+8=O d=N 4=N 38=U 2+3=N 8+11=N 17=U 5+2=N
    16+7=O 9=N 3b=N 10+2=N 11=U 5+2=N 11=U d+2=N 3b+2=N 6+4=N c=N 15+2=N 1f=N 49=N 8+5=N 5f=N
    3+7=N b=O 8+8=N 6a=N 3+9=N 14+6=N 6=U 4a+2=N 1d=N 2=N 2=N 1+4=O 37+e=N f+5=N 6+2=N 7+30=N
    39=N 67+4=N 5+6=N 7+2=N 4+2=N 1b+2=N 6+3=N 13+4=N 11=N 3+2=N 8=N 10=N 2c0+3=N 33+a=O 70=O
    29b+2=O 72=U 5+3=N 3+b=U 1d+3=N 20+2=N 20+2=N 45+7=N f=N 3+b=N 12=O 2=N 13+1b=O 95+2=N 24=N
    77+3=N 7+2=N b=N 7+3=N 7+6=O 9e+22=O 39+2=N 4=N 3b=N 2+9=N a=N 3+8=N e+d=N 3d+11=N 11+e=U
    3f+4=N 34=N 2+5=N 6=N 6=N a=U 1f+9=N 12+2=U 3+2=N 22+4=N 6+2=N 3+3=N 3b=N 2+2=N 5=N 2+3=N
    3d+8=N a+2=N 9a+3=N 4+d=N e+7=N b=N 7=N 4+2=N c8+3a=N 3a=U 1+5=N 211+b4=O b4=U 10+21=N
    34+4a=O 86+1ac=O 1f1+1a=O 1b+316=O 317+153=O 253+300=O 35f=U 86+6=O a+3=N a+7=O 86=N 61+20=N
    20+53=O 53+b=U 2d+185=O 188+19=O 22+4=N 6=O 7=O 6+3=O 5c+2=N 7=O 5b=O c5+24=O 1c00+40=O
    523d+3=U 493+37=O 17d+3=O 62+4=N 4=O 1+a=N a+2=O 20+2=N 52+2=N 10+22=O 88=O 39=U 10+9=U 31=N
    4=N 5=N 1a+2=N 3+4=O 4=N c+2=O 3c+4=O 50+2=N 1c+12=N 1f=N 27+8=N 21+b=N 39+3=N 33=N 3+4=N
    6+2=N 29=N 44+6=N 8+2=N 4+2=N e=N 9=N 30=N 34=N 2+3=N 5+2=N 7+2=N 3=N 2b+2=N a=N 74+2=O 7b=N
    3=N 5=N 4f31=N 94+10=R 10=U 17c+2=O 2+90=U bd=O 1+2=U 22+10=N 25+2=O 2e=R 28e=O 3f+4d=O
    50+11=O 6d=N e3=N 1+1b=E 95+5=N 221+26=U 1e9=U 80+11c=R 11f=O 1+e1=R e1+f=N f+26=R 28+8=N
    8+a5=R a5+2=N 6+4b=R 4e+7=O 7+1e4=R 1e4+4=N c+14f=A 150+2a=R 2b+2=N 2+5=R 50+3=U 3+46=R
    46+b=N b+9=R 1f+1a=U 40+47=R 51=N 37+f=N 1a+14=O 1e+6=U f+3=N 34+4=N 6+2=N 9=U 3e+3=N 27+5=N
    6+8=N 46=N d+2=N 36+9=N 13+4=N 6=N 60+3=N 5=N 2+2=N 8=N 1+3=U a0=N 4+8=N 1d+2=N 3b+2=N 5=N
    26+f=N d2+8=N a+3=N 4=N 18=N 55+6=N 7=N 5+2=N 3+2=N f0+4=N a+2=N 3+2=N 1d+2=N 57+8=N a=N
    2+2=N 21+d=O 4b=N 2=N 3+6=N 7=N 2=U 64+3=N 5+4=N 5+5=N 19+7=U ef+9=N a+2=N 102+2=N 3=N 5=N
    91+8=N c=N 21+6=N 8+2=N 2a+6=N 8+4=N c=N a+6=N 8+3=N 31+d=N e+2=N 18+10=U 50+a=U 130+e=N
    62+16=N 18+7=N 8+2=N 3+2=N 7c+15=N 16=N 49+2=N 5=N 2=N 15c+2=N d+5a=U d5+1d=O fbb+63=U
    49f+27=U 3641+5a=U 80+5=N 40+7=N 41f=N 40+4=N 53=O 2=N 400c+f=U 12f+14=U 36=U b48+2=N
    1263+c4=U 267+3=N 14+8=N a+7=N 25+4=N 3f+2=U 17+42=O 42+3=N 3=O 7b+14=U 40+57=O 700+37=N
    3b+32=N 3a=N f=N 17+15=N 465+2b=U 100+2b=N 8f=U a1+7=N 160+1f=U 5c+4=N 13=O 1d1+32f=U
    330+d0=R d0+7=N 52+22=R 22+7=N 7+3f3=R 5a5+240=O 27d+3=O 40=O b3+478=O 47c+4=U 4+94=O 94+c=U
    c+59=O 59=U 7+c=O 10=U 10+179=O 179=U 1+52=O 52=U 1+a8=O a8+3=U 3+3=O 3+2=U 5+7=O 7+2=U
    9+19=O 19+7=U 7+7=O 7+9=U 9+3=O 3+d=U d+7=O 7+22=U 29+cb=O abde+2=U 1057+5=U 5c1b+1060=U"

/-- Characters with their direction. -/
def directionTable : List Record := readTable directionText

/-- The direction of a character. -/
def direction (c : Char) : Direction :=
  match (record? directionTable c).map Record.value with
  | some ['R'] => .right
  | some ['A'] => .arabicDigit
  | some ['E'] => .digit
  | some ['N'] => .mark
  | some ['O'] => .neutral
  | some ['U'] => .unknown
  | _ => .left

/-- Directions that the characters of a label from the left may have. -/
def fitsLeft (d : Direction) : Bool := d ∈ [.left, .digit, .neutral, .mark]

/-- Directions that the characters of a label from the right may have. -/
def fitsRight (d : Direction) : Bool := d ∈ [.right, .arabicDigit, .digit, .neutral, .mark]

/-- Directions that the last character of a label from the right may have, marks aside. -/
def mayEndRight (d : Direction) : Bool := d ∈ [.right, .arabicDigit, .digit]

/-- The directions of a label from the left agree: those before the last one fit. -/
def agreeLeft (ds : List Direction) : Bool := ds.dropLast.all fitsLeft

/-- The directions of a label from the right agree: all of them fit, the last one may end such a
label, and Arabic digits and others are not mixed. -/
def agreeRight (ds : List Direction) : Bool :=
  ds.all fitsRight && ds.getLast?.any mayEndRight &&
    !(ds.contains .arabicDigit && ds.contains .digit)

/-- The directions in a label agree, the marks at its end aside: it has more than marks, and if one
of them is that of a script from right to left, they agree in the direction of the first one. -/
def directionsAgree (label : List Direction) : Bool :=
  let ds := (label.reverse.dropWhile (· = .mark)).reverse
  !ds.isEmpty &&
    if ds.contains .right || ds.contains .arabicDigit then
      if ds.head? = some .left then agreeLeft ds else agreeRight ds
    else true

end IndexSnapshot.Domain
