import IndexSnapshot.Number.Magnitude

/-!
# Release versions

The parts of a version identifier as PEP 440 names them: epoch, release segments, pre-release,
post-release and development numbers, and a local label. A version keeps the text it was read
from, so that it can be shown the way its author wrote it.
-/

namespace IndexSnapshot

/-- The phase of a pre-release. -/
inductive Phase where
  | alpha
  | beta
  | candidate
  deriving DecidableEq, Repr

/-- The short spelling of a phase, as normal forms write it. -/
def Phase.spelling : Phase → String
  | .alpha => "a"
  | .beta => "b"
  | .candidate => "rc"

/-- A pre-release: its phase and its number within the phase. -/
structure PreRelease where
  phase : Phase
  number : Magnitude
  deriving DecidableEq, Repr

/-- A segment of a local label: a number, or a text of small letters and digits. -/
inductive LocalPart where
  | number (n : Magnitude)
  | text (s : String)
  deriving DecidableEq, Repr

/-- A version identifier. -/
structure Version where
  /-- The text that was read. -/
  raw : String
  epoch : Magnitude
  /-- The release segments, the most significant first. -/
  release : List Magnitude
  pre : Option PreRelease
  post : Option Magnitude
  dev : Option Magnitude
  /-- The segments of the local label. -/
  localParts : Option (List LocalPart)
  deriving DecidableEq, Repr

namespace Version

/-- A version is stable when it is neither a pre-release nor a development release; a
post-release of a stable version is stable. -/
def isStable (v : Version) : Bool := v.pre.isNone && v.dev.isNone

end Version

end IndexSnapshot
