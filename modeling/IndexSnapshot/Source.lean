import IndexSnapshot.Assembly
import IndexSnapshot.Config
import IndexSnapshot.Discovery.Run
import IndexSnapshot.Scan.Run

/-!
# Taking a snapshot

A run finds the names of the packages, scans their pages, and puts the places of their files below
the base together, in the order in which the packages were found. No page of a package is asked
for before all names are known.
-/

namespace IndexSnapshot.Source

/-- Why there is no snapshot. -/
inductive Error where
  | discovery (e : Discovery.Error)
  | limit (e : Scan.LimitError)
  deriving DecidableEq, Repr

/-- The failure in words. -/
def Error.message : Error → String
  | discovery e => e.message
  | limit e => e.message

/-- What the packages are scanned with. -/
def scanOptions (config : Config) : Scan.Options := ⟨config.simpleBase, config.retention⟩

/-- What is said when the snapshot is complete. -/
def closing (packageCount entryCount : Nat) : List Event :=
  [.progress (.finish "done"), .notice (.generated packageCount entryCount)]

/-- The snapshot of a configuration, when the pages of the packages arrive as a schedule for their
names says, and all that happens meanwhile. There is no answer as long as pages are missing. -/
def snapshotOn (schedule : List String → List Nat) (world : World) (config : Config) :
    Option (Except Error (List String)) × List Event :=
  match Discovery.run world config.strategy with
  | (.error e, found) => (some (.error (.discovery e)), found)
  | (.ok names, found) =>
    match Scan.runOn (schedule names) world (scanOptions config) config.concurrentResolve names with
    | .error e => (some (.error (.limit e)), found)
    | .ok (none, scanned) => (none, found ++ scanned)
    | .ok (some results, scanned) =>
      let (entries, notices) := Assembly.assemble results config.packageBase
      (some (.ok entries),
        found ++ scanned ++ notices.map .notice ++ closing names.length entries.length)

/-- The snapshot of a configuration, the pages arriving in the order in which they were asked
for. -/
def snapshot (world : World) (config : Config) :
    Option (Except Error (List String)) × List Event :=
  snapshotOn Scan.inOrder world config

/-- A description of the source in one line. -/
def info (config : Config) : String :=
  let retention := config.retention.elim "all" fun budget ↦ budget.keepRecent.text
  let mode :=
    match config.strategy with
    | .fullIndex _ debug => "index" ++ if debug then "(debug)" else ""
    | .popularity projectId .. => "bigquery(project=" ++ projectId ++ ")"
  "pypi, simple_base=" ++ config.simpleBase ++ ", package_base=" ++ config.packageBase ++ ", " ++
    mode ++ ", keep_recent=" ++ retention ++ ", concurrency=" ++ config.concurrentResolve.text

end IndexSnapshot.Source
