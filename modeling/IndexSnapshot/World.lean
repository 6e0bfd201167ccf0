import IndexSnapshot.Json.Basic

/-!
# What a run asks the world

The answers that a run can get: a page for every address, and the rows of a query. A run is a
function of these answers.
-/

namespace IndexSnapshot

/-- Why an answer is missing. -/
inductive Failure where
  /-- Something went wrong on the way. -/
  | error (message : String)
  /-- The exchange with the server went wrong; the status is that of its answer, if it gave one. -/
  | http (message : String) (status : Option Nat)
  /-- A bare text was given in place of a reason. -/
  | bare (text : String)
  deriving DecidableEq, Repr

namespace Failure

/-- The reason in words. -/
def message : Failure → String
  | error message | http message _ | bare message => message

/-- The status of the server's answer. -/
def status? : Failure → Option Nat
  | http _ status => status
  | _ => none

end Failure

/-- What an address answers: a body, which is a text if it is a page, or a failure. -/
abbrev Response := Except Failure Json

/-- The service that knows how often packages are installed. -/
inductive Warehouse where
  /-- No connection can be had. -/
  | unreachable (message : String)
  /-- The connection stands, and the query fails. -/
  | refusing (message : String)
  /-- The query answers rows. -/
  | answering (rows : List Json)
  deriving Repr

/-- All answers that a run can get. -/
structure World where
  fetch : String → Response
  warehouse : Warehouse

end IndexSnapshot
