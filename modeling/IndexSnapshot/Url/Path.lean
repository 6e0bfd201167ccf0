import IndexSnapshot.Text.Letters
import IndexSnapshot.Text.Split
import IndexSnapshot.Url.Basic
import IndexSnapshot.Url.Percent

/-!
# Paths

A written path is resolved segment by segment against a stack of segments: a single dot is
dropped, a double dot takes the last segment away, and any other segment is pushed. A dot segment
at the very end leaves an empty segment, so that the path ends in a slash, except for a double dot
that takes nothing away under a scheme that is not special. The dots of a dot segment may be
percent-encoded.
-/

namespace IndexSnapshot.Path

/-- Characters that end a segment: the slash, and under special schemes the reverse solidus. -/
def isSlash (special : Bool) (c : Char) : Bool := c = '/' || (special && c = '\\')

/-- The segment stands for the segment it is in. -/
def isSingleDot (segment : List Char) : Bool :=
  [".", "%2e"].any fun dots ↦ dots.toList = Text.lower segment

/-- The segment stands for the one above. -/
def isDoubleDot (segment : List Char) : Bool :=
  ["..", ".%2e", "%2e.", "%2e%2e"].any fun dots ↦ dots.toList = Text.lower segment

/-- A letter and a colon or a vertical bar: the name of a drive. -/
def isDriveLetter : List Char → Bool
  | [letter, mark] => letter.isAlpha && (mark = ':' || mark = '|')
  | _ => false

/-- The segment begins with a drive in its usual form, with a colon. -/
def isNormalDrive : List Char → Bool
  | letter :: ':' :: _ => letter.isAlpha
  | _ => false

/-- A written path begins with a drive. -/
def startsWithDrive (cs : List Char) : Bool :=
  isDriveLetter (cs.take 2) &&
    match cs.drop 2 with
    | [] => true
    | c :: _ => c = '/' || c = '\\'

/-- The stack without its last segment; the drive of a file stays. -/
def shorten (file : Bool) (segments : List (List Char)) : List (List Char) :=
  match file, segments with
  | true, [drive] => if isNormalDrive drive then [drive] else []
  | _, _ => segments.dropLast

/-- A segment as it is pushed: percent-encoded, and the first segment of a file in the usual form
of a drive if it is one. -/
def written (file : Bool) (done : List (List Char)) (segment : List Char) : List Char :=
  match file && done.isEmpty && isDriveLetter segment, segment with
  | true, letter :: _ => [letter, ':']
  | _, _ => Percent.encode Percent.inPath segment

/-- The stack after one more written segment. -/
def push (special file : Bool) (done : List (List Char)) (segment : List Char) (isLast : Bool) :
    List (List Char) :=
  if isDoubleDot segment then
    if isLast && (special || !done.isEmpty) then shorten file done ++ [[]] else shorten file done
  else if isSingleDot segment then
    if isLast then done ++ [[]] else done
  else done ++ [written file done segment]

/-- The stack after all written segments, the last of which ends the path. -/
def pushAll (special file : Bool) (done : List (List Char)) :
    List (List Char) → List (List Char)
  | [] => done
  | [segment] => push special file done segment true
  | segment :: rest => pushAll special file (push special file done segment false) rest

/-- The segments that a written path leads to from a stack of segments. -/
def resolve (scheme : List Char) (done : List (List Char)) (path : List Char) :
    List (List Char) :=
  let special := Url.isSpecialScheme scheme
  pushAll special (Url.isFileScheme scheme) done (Text.splitAtMarks (isSlash special) path)

end IndexSnapshot.Path
