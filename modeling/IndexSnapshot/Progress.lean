import IndexSnapshot.Number.Binary64

/-!
# Progress of a run

How much of a run is done, as counters and a message that change step by step, and the event that
each step tells its listeners.
-/

namespace IndexSnapshot

/-- The state that a display of the progress shows. -/
structure Progress where
  total : Binary64 := 0
  completed : Binary64 := 0
  message : String := ""
  deriving Repr

namespace Progress

/-- A change of the progress. -/
inductive Step where
  /-- A number of items is to be done, and none of them is. -/
  | start (total : Binary64)
  /-- The item at hand. -/
  | display (message : String)
  /-- So many more items are done. -/
  | advance (delta : Binary64)
  /-- The run is over. -/
  | finish (message : String)
  deriving Repr

/-- What a step tells its listeners. -/
inductive Event where
  | started (total : Binary64)
  | displayed (message : String)
  | advanced (completed total : Binary64)
  | finished (message : String)
  deriving DecidableEq, Repr

/-- The state after a step. -/
def apply (p : Progress) : Step → Progress
  | .start total => { p with total := total, completed := 0 }
  | .display message => { p with message := message }
  | .advance delta => { p with completed := p.completed + delta }
  | .finish message => { p with message := message }

/-- The event of a step. -/
def event (p : Progress) (step : Step) : Event :=
  match step with
  | .start total => .started total
  | .display message => .displayed message
  | .advance _ => .advanced (p.apply step).completed p.total
  | .finish message => .finished message

/-- The state after steps made one after the other. -/
def applyAll (p : Progress) (steps : List Step) : Progress := steps.foldl apply p

/-- The events of steps made one after the other. -/
def events (p : Progress) : List Step → List Event
  | [] => []
  | step :: steps => p.event step :: (p.apply step).events steps

end Progress

end IndexSnapshot
