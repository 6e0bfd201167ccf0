import IndexSnapshot.Log.Notice
import IndexSnapshot.Progress

/-!
# Events of a run

All that a run does besides giving an answer, in the order in which it happens.
-/

namespace IndexSnapshot

/-- Who pays for a query, and the key file that proves it when one is named. -/
structure Billing where
  projectId : String
  keyFile : Option String
  deriving DecidableEq, Repr

/-- Something that happens in a run. -/
inductive Event where
  | notice (n : Notice)
  /-- A page is asked for. -/
  | request (url : String)
  /-- The query for popular packages is made. -/
  | query (billing : Billing)
  | progress (step : Progress.Step)

namespace Event

/-- The notices among events. -/
def notices (events : List Event) : List Notice :=
  events.filterMap fun
    | notice n => some n
    | _ => none

/-- The addresses of the pages asked for. -/
def requests (events : List Event) : List String :=
  events.filterMap fun
    | request url => some url
    | _ => none

/-- The queries made. -/
def queries (events : List Event) : List Billing :=
  events.filterMap fun
    | query billing => some billing
    | _ => none

/-- The steps of the progress. -/
def steps (events : List Event) : List Progress.Step :=
  events.filterMap fun
    | progress step => some step
    | _ => none

end Event

end IndexSnapshot
