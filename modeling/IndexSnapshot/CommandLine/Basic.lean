/-!
# Commands

The commands of a program form a tree: a group has commands as members, and an action does
something. Each command has options of its own, written with two dashes, and an action has
arguments. Every command has an option that asks for help.
-/

namespace IndexSnapshot.CommandLine

/-- An option of a command. -/
structure Flag where
  /-- The name, with its dashes. -/
  name : String
  /-- What the value is called, if the option has one. -/
  value : Option String
  description : String
  deriving DecidableEq, Repr

/-- The form in which an option is written. -/
def Flag.form (f : Flag) : String := f.name ++ f.value.elim "" fun v ↦ " <" ++ v ++ ">"

/-- An argument of an action. -/
structure Positional where
  name : String
  required : Bool
  /-- All further words belong to the argument. -/
  many : Bool
  description : String
  deriving DecidableEq, Repr

/-- The form in which an argument is written. -/
def Positional.form (p : Positional) : String :=
  let name := if p.many then p.name ++ "..." else p.name
  if p.required then "<" ++ name ++ ">" else "[" ++ name ++ "]"

/-- What help says of a command. -/
structure Entry where
  name : String
  description : String
  /-- What help says of the option for the version, which only a whole program has. -/
  versionNote : Option String
  flags : List Flag
  positionals : List Positional
  /-- What help says of the option for help. -/
  helpNote : String
  deriving DecidableEq, Repr

/-- What actions there are. -/
inductive Verb where
  | snapshot
  | resolve
  | configGet
  | configSet
  | configList
  | configReset
  deriving DecidableEq, Repr

/-- A command with all that is below it. -/
inductive Command where
  | action (entry : Entry) (verb : Verb)
  | group (entry : Entry) (members : List Command)

namespace Command

/-- What help says of the command. -/
def entry : Command → Entry
  | action entry _ | group entry _ => entry

/-- The commands directly below. -/
def members : Command → List Command
  | action _ _ => []
  | group _ members => members

/-- The command is a group. -/
def isGroup : Command → Bool
  | action _ _ => false
  | group _ _ => true

/-- The name of the command. -/
def name (c : Command) : String := c.entry.name

end Command

/-- The two names of the option for help. -/
def helpNames : List String := ["-h", "--help"]

/-- The name of the member that every group has without listing it, and that shows help. -/
def helpMember : String := "help"

/-- A word asks for the version: it is the long name of that option, or begins with the short
one. -/
def asksVersion (word : String) : Bool := word = "--version" || "-v".isPrefixOf word

end IndexSnapshot.CommandLine
