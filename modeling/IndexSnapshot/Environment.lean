/-!
# Environment variables
-/

namespace IndexSnapshot

/-- The variables that a program is started with. -/
def Environment : Type := String → Option String

namespace Environment

/-- The environment with the given variables and no others. -/
def ofList (bindings : List (String × String)) : Environment := fun name ↦ bindings.lookup name

/-- The value of a variable; a variable that is set to the empty text counts as not set. -/
def get? (env : Environment) (name : String) : Option String := (env name).filter (· ≠ "")

end Environment

end IndexSnapshot
