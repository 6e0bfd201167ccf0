/-!
# Display widths

How many columns a text takes on a console with letters of one width: ideographs, kana, hangul and
pictures take two columns, control and combining characters none, all others one.
-/

namespace IndexSnapshot.Text

/-- The ranges of characters that are drawn twice as wide as a letter. -/
def wideRanges : List (Nat × Nat) :=
  [(0x1100, 0x115f), (0x2329, 0x232a), (0x2e80, 0x303e), (0x3040, 0x3247), (0x3250, 0x4dbf),
    (0x4e00, 0xa4c6), (0xa960, 0xa97c), (0xac00, 0xd7a3), (0xf900, 0xfaff), (0xfe10, 0xfe19),
    (0xfe30, 0xfe6b), (0xff01, 0xff60), (0xffe0, 0xffe6), (0x1b000, 0x1b001),
    (0x1f200, 0x1f251), (0x20000, 0x3fffd)]

/-- The ranges of characters that are drawn as pictures without further ado. -/
def pictureRanges : List (Nat × Nat) :=
  [(0x231a, 0x231b), (0x23e9, 0x23ec), (0x23f0, 0x23f0), (0x23f3, 0x23f3), (0x25fd, 0x25fe),
    (0x2614, 0x2615), (0x2648, 0x2653), (0x267f, 0x267f), (0x2693, 0x2693), (0x26a1, 0x26a1),
    (0x26aa, 0x26ab), (0x26bd, 0x26be), (0x26c4, 0x26c5), (0x26ce, 0x26ce), (0x26d4, 0x26d4),
    (0x26ea, 0x26ea), (0x26f2, 0x26f3), (0x26f5, 0x26f5), (0x26fa, 0x26fa), (0x26fd, 0x26fd),
    (0x2705, 0x2705), (0x270a, 0x270b), (0x2728, 0x2728), (0x274c, 0x274c), (0x274e, 0x274e),
    (0x2753, 0x2755), (0x2757, 0x2757), (0x2795, 0x2797), (0x27b0, 0x27b0), (0x27bf, 0x27bf),
    (0x2b1b, 0x2b1c), (0x2b50, 0x2b50), (0x2b55, 0x2b55), (0x1f004, 0x1f004),
    (0x1f0cf, 0x1f0cf), (0x1f18e, 0x1f18e), (0x1f191, 0x1f19a), (0x1f300, 0x1f320),
    (0x1f32d, 0x1f335), (0x1f337, 0x1f37c), (0x1f37e, 0x1f393), (0x1f3a0, 0x1f3ca),
    (0x1f3cf, 0x1f3d3), (0x1f3e0, 0x1f3f0), (0x1f3f4, 0x1f3f4), (0x1f3f8, 0x1f43e),
    (0x1f440, 0x1f440), (0x1f442, 0x1f4fc), (0x1f4ff, 0x1f53d), (0x1f54b, 0x1f54e),
    (0x1f550, 0x1f567), (0x1f57a, 0x1f57a), (0x1f595, 0x1f596), (0x1f5a4, 0x1f5a4),
    (0x1f5fb, 0x1f64f), (0x1f680, 0x1f6c5), (0x1f6cc, 0x1f6cc), (0x1f6d0, 0x1f6d2),
    (0x1f6d5, 0x1f6d5), (0x1f6eb, 0x1f6ec), (0x1f6f4, 0x1f6fa), (0x1f7e0, 0x1f7eb),
    (0x1f90d, 0x1f93a), (0x1f93c, 0x1f945), (0x1f947, 0x1f971), (0x1f973, 0x1f976),
    (0x1f97a, 0x1f9a2), (0x1f9a5, 0x1f9aa), (0x1f9ae, 0x1f9ca), (0x1f9cd, 0x1f9ff),
    (0x1fa70, 0x1fa73), (0x1fa78, 0x1fa7a), (0x1fa80, 0x1fa82), (0x1fa90, 0x1fa95)]

/-- The character lies in one of some ranges. -/
def inRanges (ranges : List (Nat × Nat)) (c : Char) : Bool :=
  ranges.any fun (low, high) ↦ low ≤ c.toNat && c.toNat ≤ high

/-- A control character or a combining mark, which takes no column of its own. -/
def isWidthless (c : Char) : Bool :=
  c ≤ '\u001f' || ('\u007f' ≤ c && c ≤ '\u009f') || ('\u0300' ≤ c && c ≤ '\u036f')

/-- The number of columns that a character takes. -/
def columns (c : Char) : Nat :=
  if isWidthless c then 0
  else if inRanges wideRanges c || inRanges pictureRanges c then 2
  else 1

/-- The number of columns that a line takes. -/
def width : List Char → Nat
  | [] => 0
  | c :: cs => columns c + width cs

/-- The longest initial part of a line that fits into a number of columns. -/
def takeColumns : Nat → List Char → List Char
  | _, [] => []
  | n, c :: cs => if columns c ≤ n then c :: takeColumns (n - columns c) cs else []

theorem width_takeColumns_le (n : Nat) (cs : List Char) : width (takeColumns n cs) ≤ n := by
  induction cs generalizing n with
  | nil => exact Nat.zero_le n
  | cons c cs ih =>
    rw [takeColumns]
    split
    · have := ih (n - columns c)
      rw [width]
      omega
    · exact Nat.zero_le n

end IndexSnapshot.Text
