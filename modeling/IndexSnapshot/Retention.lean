import IndexSnapshot.Distribution
import IndexSnapshot.Listing.Page
import IndexSnapshot.Log.Notice
import IndexSnapshot.Version.Order

/-!
# Retention

Which files of a package are kept when only recent versions are wanted. Versions are walked from
the newest to the oldest. A version is selected as long as the budget lasts, and at most half of
the budget, rounded down, goes to versions that are not stable; all files of a selected version are
kept, and they do not count again.

When the version of a single file is unknown, all files of the package are kept as they are.
-/

namespace IndexSnapshot.Retention

/-- How many recent versions of a package are wanted. -/
structure Budget where
  keepRecent : Binary64
  deriving DecidableEq, Repr

/-- A file whose version is known. -/
structure Candidate where
  artifact : Artifact
  version : Version
  deriving DecidableEq, Repr

/-- The files whose version is known, with it. -/
def candidates (artifacts : List Artifact) : List Candidate :=
  artifacts.filterMap fun a ↦ (Distribution.version? a.filename).map fun v ↦ ⟨a, v⟩

/-- The files whose version is unknown. -/
def unknown (artifacts : List Artifact) : List Artifact :=
  artifacts.filter fun a ↦ (Distribution.version? a.filename).isNone

/-- The files to keep, from candidates that are in order from the newest to the oldest. The walk
remembers the version selected last, how many versions are selected, and how many of those are not
stable. -/
def select (budget : Budget) (previous : Option Version) (selected unstable : Nat) :
    List Candidate → List Artifact
  | [] => []
  | c :: rest =>
    if previous.any fun p ↦ p.isSame c.version then
      c.artifact :: select budget previous selected unstable rest
    else if budget.keepRecent.reachedBy selected then []
    else if c.version.isStable then
      c.artifact :: select budget (some c.version) (selected + 1) unstable rest
    else if budget.keepRecent.halfFloor.reachedBy unstable then
      select budget previous selected unstable rest
    else c.artifact :: select budget (some c.version) (selected + 1) (unstable + 1) rest

/-- The candidates from the newest to the oldest; those of one version are in the reverse of the
order given. -/
def newestFirst (cs : List Candidate) : List Candidate :=
  (Version.sortOldestFirst Candidate.version cs).reverse

/-- The files to keep of candidates in any order. -/
def keep (budget : Budget) (cs : List Candidate) : List Artifact :=
  select budget none 0 0 (newestFirst cs)

/-- The files to keep of a package, and what there is to say about it. -/
def truncate (packageName : String) (budget : Budget) (artifacts : List Artifact) :
    List Artifact × List Notice :=
  match unknown artifacts with
  | [] => (keep budget (candidates artifacts), [])
  | strangers =>
    (artifacts,
      (strangers.map fun a ↦ .versionUnknown packageName a.filename) ++
        [.retentionSkipped packageName])

end IndexSnapshot.Retention
