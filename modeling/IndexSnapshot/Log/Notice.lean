import IndexSnapshot.Log.Record

/-!
# Notices of a run

What a run has to say while it goes on, and the log record that says it.
-/

namespace IndexSnapshot

/-- Something that a run tells its log. -/
inductive Notice where
  /-- The root page of the index is asked for. -/
  | fetchingIndex (simpleBase : String)
  /-- The root page has arrived. -/
  | readingIndex
  /-- Popular packages are chosen by a query, which has no debug mode. -/
  | debugIgnored
  /-- The query for popular packages is about to run. -/
  | querying (projectId : String)
  /-- The pages of the packages are about to be asked for. -/
  | scanning (packageCount : Nat) (concurrency : Binary64)
  /-- A package page could not be had or read; the status is that of the answer, when there was
  one. -/
  | scanFailed (packageName : String) (status : Option Nat) (reason : String)
  /-- A file name tells no version. -/
  | versionUnknown (packageName filename : String)
  /-- A package keeps all its files, since the version of one of them is unknown. -/
  | retentionSkipped (packageName : String)
  /-- All package pages are done. -/
  | scanned (packageCount : Nat)
  /-- A file lies outside the base that snapshots are relative to. -/
  | outsideBase (url packageBase : String)
  /-- The snapshot is complete. -/
  | generated (packageCount entryCount : Nat)
  /-- The description of the source that a run is about to use. -/
  | usingSource (info : String)
  /-- The log has its directory. -/
  | logReady (directory : String)
  deriving DecidableEq, Repr

namespace Notice

/-- The level at which a notice is logged. -/
def level : Notice → Log.Level
  | debugIgnored | scanFailed .. | retentionSkipped _ | outsideBase .. => .warn
  | versionUnknown .. | scanned _ | logReady _ => .debug
  | fetchingIndex _ | readingIndex | querying _ | scanning .. | generated .. | usingSource _ =>
    .info

/-- The message of a notice. -/
def message : Notice → String
  | fetchingIndex _ => "downloading pypi index..."
  | readingIndex => "parsing index..."
  | debugIgnored => "debug mode is ignored in popularity query mode"
  | querying _ => "executing bigquery query..."
  | scanning .. => "downloading package index..."
  | scanFailed .. => "failed to fetch index"
  | versionUnknown .. => "failed to parse version from filename"
  | retentionSkipped _ => "give up keep_recent for package"
  | scanned _ => "package index download finished"
  | outsideBase .. => "package isn't stored on base"
  | generated .. => "snapshot generated"
  | usingSource _ => "snapshot source"
  | logReady _ => "로거 초기화 완료"

/-- The details of a notice; some notices have none. -/
def fields : Notice → Option (List (String × Json))
  | fetchingIndex simpleBase => some [("simpleBase", .string simpleBase)]
  | readingIndex | debugIgnored => none
  | querying projectId => some [("projectId", .string projectId)]
  | scanning packageCount concurrency =>
    some [("packageCount", .number (.ofNat packageCount)), ("concurrency", .number concurrency)]
  | scanFailed packageName status reason =>
    let status := status.elim [] fun n ↦ [("status", Json.number (.ofNat n))]
    some ([("packageName", .string packageName)] ++ status ++ [("error", .string reason)])
  | versionUnknown packageName filename =>
    some [("packageName", .string packageName), ("filename", .string filename)]
  | retentionSkipped packageName => some [("packageName", .string packageName)]
  | scanned packageCount => some [("packageCount", .number (.ofNat packageCount))]
  | outsideBase url packageBase =>
    some [("url", .string url), ("packageBase", .string packageBase)]
  | generated packageCount entryCount =>
    some [("packageCount", .number (.ofNat packageCount)),
      ("entryCount", .number (.ofNat entryCount))]
  | usingSource info => some [("info", .string info)]
  | logReady directory => some [("logsDir", .string directory)]

/-- The package that a notice is about, when it is about one. -/
def packageName? : Notice → Option String
  | scanFailed packageName .. | versionUnknown packageName _ | retentionSkipped packageName =>
    some packageName
  | _ => none

/-- The log record of a notice. -/
def record (n : Notice) : Log.Record := ⟨n.level, n.message, n.fields⟩

end Notice

end IndexSnapshot
