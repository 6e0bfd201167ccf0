import IndexSnapshot.Version.Basic

/-!
# The order of versions

Versions are compared by a sort key of six parts, the first part that differs deciding: epoch,
release without trailing zeros, pre-release, post-release, development number, local label.
An absent part is a definite place in the order of its kind:

* a version that is a development release only, with neither pre- nor post-release, comes before
  every pre-release of the same release, and a version without pre-release after all of them;
* no post-release comes before every post-release;
* no development number comes after every development number of the range, and an infinite
  development number is as late as none;
* no local label comes before every local label.
-/

namespace IndexSnapshot

instance : Ord Magnitude where
  compare
    | .finite a, .finite b => compare a b
    | .finite _, .infinite => .lt
    | .infinite, .finite _ => .gt
    | .infinite, .infinite => .eq

/-- A text segment of a local label comes before every numeric one. -/
instance : Ord LocalPart where
  compare
    | .number a, .number b => compare a b
    | .number _, .text _ => .gt
    | .text _, .number _ => .lt
    | .text a, .text b => compare a b

/-- A magnitude, or the place before all magnitudes. -/
inductive Place where
  | before
  | number (n : Magnitude)
  deriving DecidableEq, Repr

instance : Ord Place where
  compare
    | .before, .before => .eq
    | .before, .number _ => .lt
    | .number _, .before => .gt
    | .number a, .number b => compare a b

/-- The rank of a phase among the phases of one release. -/
def Phase.rank : Phase → Nat
  | .alpha => 0
  | .beta => 1
  | .candidate => 2

namespace Version

/-- The release segments without the zeros at their end; one segment is always left. -/
def trimZeros : List Magnitude → List Magnitude
  | [] => []
  | n :: ns => n :: (ns.reverse.dropWhile (· = .finite 0)).reverse

/-- The place of a version among the pre-releases of its release. -/
def preKey (v : Version) : List Place :=
  match v.pre, v.post, v.dev with
  | none, none, some _ => [.before]
  | none, _, _ => [.number .infinite]
  | some p, _, _ => [.number (.finite p.phase.rank), .number p.number]

/-- The place of a version among the post-releases of its release. -/
def postKey (v : Version) : Place := v.post.elim .before .number

/-- The place of a version among the development releases of what it develops. -/
def devKey (v : Version) : Magnitude := v.dev.getD .infinite

/-- Compares two versions, the older one being the smaller. -/
def order : Version → Version → Ordering :=
  compareLex (compareOn epoch) <|
  compareLex (compareOn fun v ↦ trimZeros v.release) <|
  compareLex (compareOn preKey) <|
  compareLex (compareOn postKey) <|
  compareLex (compareOn devKey) (compareOn localParts)

/-- Two versions name the same release when neither comes before the other: `1.0` is `1.0.0`. -/
def isSame (a b : Version) : Bool := order a b == .eq

/-- The versions from the oldest to the newest; same versions stay in the order given. -/
def sortOldestFirst {α : Type} (version : α → Version) (items : List α) : List α :=
  items.mergeSort fun a b ↦ (order (version a) (version b)).isLE

end Version

end IndexSnapshot
