import IndexSnapshot.Json.Basic

/-!
# Log records
-/

namespace IndexSnapshot.Log

/-- How much a record matters. -/
inductive Level where
  | error
  | warn
  | info
  | debug
  deriving DecidableEq, Repr

/-- The name of a level. -/
def Level.name : Level → String
  | .error => "error"
  | .warn => "warn"
  | .info => "info"
  | .debug => "debug"

/-- A record: a level, a message, and fields with details when there are any. -/
structure Record where
  level : Level
  message : String
  fields : Option (List (String × Json))
  deriving Repr

end IndexSnapshot.Log
