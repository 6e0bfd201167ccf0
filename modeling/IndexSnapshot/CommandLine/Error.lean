import IndexSnapshot.CommandLine.Basic
import IndexSnapshot.CommandLine.Suggestion

/-!
# What can be wrong with a command line
-/

namespace IndexSnapshot.CommandLine

/-- Why a command line is not understood. -/
inductive Error where
  /-- A group has no member of the name. -/
  | unknownCommand (name : String) (suggestions : List String)
  /-- No option of the command, or of one above it, has the name. -/
  | unknownOption (word : String) (suggestions : List String)
  /-- An argument that must be given is not given. -/
  | missingArgument (name : String)
  /-- The command line ends before the value of an option. -/
  | missingValue (flag : Flag)
  deriving DecidableEq, Repr

/-- The complaint in words. -/
def Error.message : Error → String
  | unknownCommand name suggestions =>
    "error: unknown command '" ++ name ++ "'" ++ suggestionLine suggestions
  | unknownOption word suggestions =>
    "error: unknown option '" ++ word ++ "'" ++ suggestionLine suggestions
  | missingArgument name => "error: missing required argument '" ++ name ++ "'"
  | missingValue flag => "error: option '" ++ flag.form ++ "' argument missing"

end IndexSnapshot.CommandLine
