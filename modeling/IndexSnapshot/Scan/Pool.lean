import IndexSnapshot.Number.Binary64

/-!
# A pool of jobs with a limit

Jobs wait in a queue and start in the order in which they were handed in, at most so many at a
time. The state is a record of what waits, what has started, and how the started jobs ended;
there is no clock, and jobs may end in any order.

When a job ends, well or badly, its place goes to the next job of the queue. The outcome of the
whole is the failure of the first job that failed, or, when all jobs have ended well, their
results in the order of the jobs.
-/

namespace IndexSnapshot.Scan

/-- How many jobs may run at a time. -/
inductive Limit where
  | atMost (n : Nat)
  | unlimited
  deriving DecidableEq, Repr

namespace Limit

/-- The limit that a number sets: a positive integer, or no limit. -/
def ofNumber? : Binary64 → Option Limit
  | .infinity false => some unlimited
  | n =>
    match n.toInt? with
    | some (.ofNat (k + 1)) => some (atMost (k + 1))
    | _ => none

/-- One more job may start while so many are running. -/
def admits (limit : Limit) (running : Nat) : Bool :=
  match limit with
  | atMost n => running < n
  | unlimited => true

end Limit

/-- A pool of jobs `ι` that end with a result `α` or a failure `ε`. A started job is known by its
number in the order of start, counted from zero. -/
structure Pool (ι ε α : Type) where
  limit : Limit
  /-- The jobs that have not started, the next one first. -/
  waiting : List ι
  /-- The jobs that have started, in the order of start. -/
  started : List ι
  /-- The numbers of the jobs that have started and not ended. -/
  running : List Nat
  /-- The results of the jobs that have ended well, the last one first. -/
  results : List (Nat × α)
  /-- The failure of the first job that failed. -/
  failure : Option ε

namespace Pool

variable {ι ε α : Type}

/-- Starts the next job if there is one and the limit allows it. -/
def startNext (p : Pool ι ε α) : Pool ι ε α :=
  match p.waiting with
  | [] => p
  | job :: rest =>
    if p.limit.admits p.running.length then
      { p with
        waiting := rest
        started := p.started ++ [job]
        running := p.running ++ [p.started.length] }
    else p

/-- The pool that jobs were just handed to: as many have started as the limit allows. -/
def ofJobs (limit : Limit) (jobs : List ι) : Pool ι ε α :=
  jobs.foldl (fun p _ ↦ p.startNext)
    { limit, waiting := jobs, started := [], running := [], results := [], failure := none }

/-- The job of a number has started and not ended. -/
def isRunning (p : Pool ι ε α) (i : Nat) : Bool := p.running.contains i

/-- The pool after a running job has ended; nothing changes if the job is not running. -/
def settle (p : Pool ι ε α) (i : Nat) (ending : Except ε α) : Pool ι ε α :=
  if p.isRunning i then
    let p := { p with running := p.running.erase i }
    let p :=
      match ending with
      | .ok a => { p with results := (i, a) :: p.results }
      | .error e => { p with failure := p.failure <|> some e }
    p.startNext
  else p

/-- The number of jobs in all. -/
def size (p : Pool ι ε α) : Nat := p.started.length + p.waiting.length

/-- The results in the order of the jobs. -/
def ordered (p : Pool ι ε α) : List α := (List.range p.size).filterMap fun i ↦ p.results.lookup i

/-- The outcome, once it is decided. -/
def outcome (p : Pool ι ε α) : Option (Except ε (List α)) :=
  match p.failure with
  | some e => some (.error e)
  | none => if p.results.length = p.size then some (.ok p.ordered) else none

/-- The pool after jobs have ended one after the other. -/
def settleAll (p : Pool ι ε α) (endings : List (Nat × Except ε α)) : Pool ι ε α :=
  endings.foldl (fun p (i, ending) ↦ p.settle i ending) p

end Pool

end IndexSnapshot.Scan
