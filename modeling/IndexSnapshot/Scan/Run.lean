import IndexSnapshot.Event
import IndexSnapshot.Scan.Package
import IndexSnapshot.Scan.Pool

/-!
# Scanning all packages

The pages of all packages are asked for through a pool, and answered in an order that a schedule
gives: a list of job numbers, each saying that the answer for that job arrives now. Whatever the
schedule, the files come back in the order of the packages.
-/

namespace IndexSnapshot.Scan

/-- Why a scan does not begin. -/
inductive LimitError where
  /-- The number of jobs at a time is no positive integer. -/
  | badConcurrency
  deriving DecidableEq, Repr

/-- The complaint in words. -/
def LimitError.message : LimitError → String
  | badConcurrency => "Expected \x60concurrency\x60 to be a number from 1 and up"

/-- The limit that a number of jobs at a time sets. -/
def limit (concurrency : Binary64) : Except LimitError Limit :=
  match Limit.ofNumber? concurrency with
  | some l => .ok l
  | none => .error .badConcurrency

/-- What is said before the first page is asked for. -/
def opening (packageCount : Nat) (concurrency : Binary64) : List Event :=
  [.notice (.scanning packageCount concurrency), .progress (.start (.ofNat packageCount))]

/-- What is said when all packages are done. -/
def closing (packageCount : Nat) : List Event := [.notice (.scanned packageCount)]

/-- What happens when packages start. -/
def starting (options : Options) (names : List String) : List Event :=
  names.flatMap fun name ↦
    [.progress (.display name), .request (pageUrl options.simpleBase name)]

/-- A pool whose jobs are packages, and all that has happened. A job of this pool never fails. -/
structure Session where
  pool : Pool String Empty (List Artifact)
  trace : List Event

/-- The session in which the first packages have just started. -/
def Session.begin (options : Options) (limit : Limit) (concurrency : Binary64)
    (names : List String) : Session :=
  let pool := Pool.ofJobs limit names
  { pool, trace := opening names.length concurrency ++ starting options pool.started }

/-- The session after the page of a running job has arrived. -/
def Session.arrive (world : World) (options : Options) (s : Session) (i : Nat) : Session :=
  match s.pool.started[i]? with
  | some name =>
    if s.pool.isRunning i then
      let (artifacts, notices) :=
        package options name (world.fetch (pageUrl options.simpleBase name))
      let pool := s.pool.settle i (.ok artifacts)
      { pool
        trace := s.trace ++ notices.map .notice ++ [.progress (.advance 1)] ++
          starting options (pool.started.drop s.pool.started.length) }
    else s
  | none => s

/-- The session after pages have arrived in the order of a schedule. -/
def Session.follow (world : World) (options : Options) (s : Session) (schedule : List Nat) :
    Session :=
  schedule.foldl (arrive world options) s

/-- What the session has come to: the files of each package, in order. -/
def Session.result? (s : Session) : Option (List (List Artifact)) :=
  match s.pool.outcome with
  | some (.ok results) => some results
  | _ => none

/-- The files of all packages under a schedule, once all pages have arrived, and all that has
happened. -/
def runOn (schedule : List Nat) (world : World) (options : Options) (concurrency : Binary64)
    (names : List String) : Except LimitError (Option (List (List Artifact)) × List Event) := do
  let l ← limit concurrency
  let s := (Session.begin options l concurrency names).follow world options schedule
  match s.result? with
  | some results => return (some results, s.trace ++ closing names.length)
  | none => return (none, s.trace)

/-- The schedule in which pages arrive in the order in which they were asked for. -/
def inOrder (names : List String) : List Nat := List.range names.length

end IndexSnapshot.Scan
