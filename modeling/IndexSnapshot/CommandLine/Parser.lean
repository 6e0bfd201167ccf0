import IndexSnapshot.CommandLine.Error
import IndexSnapshot.CommandLine.Help
import IndexSnapshot.CommandLine.Words

/-!
# Understanding a command line

The words of a command line go down the tree of commands. Each command takes its own options out of
the words, and a group hands what is left to the member that the first plain word names. A group
has a member `help` that shows the screen of another member, or that of the group.

A request for the version comes before all else, a missing value of an option before a request for
help, and a request for help before any other fault.
-/

namespace IndexSnapshot.CommandLine

/-- What a command line comes to. -/
inductive Outcome where
  /-- The version is asked for. -/
  | version
  /-- A help screen is shown, because it is asked for or because a command failed to name a member.
  It is the program's own, or that of one of its commands. -/
  | help (screen : String) (failed ofProgram : Bool)
  /-- The command line is not understood, by the program itself or by one of its commands. -/
  | wrong (error : Error) (byProgram : Bool)
  /-- An action is called for, with its arguments and options. -/
  | act (verb : Verb) (arguments : List String) (given : Given)
  deriving DecidableEq, Repr

/-- The long names of the options of a command. -/
def Entry.optionNames (e : Entry) : List String :=
  (if e.versionNote.isSome then ["--version"] else []) ++ e.flags.map Flag.name ++ ["--help"]

/-- The first argument that must be given and is not. -/
def Entry.missing? (e : Entry) (arguments : List String) : Option String :=
  ((e.positionals.drop arguments.length).find? Positional.required).map Positional.name

/-- Some of the words ask for help. -/
def askHelp (ws : List String) : Bool := ws.any helpNames.contains

/-- The error that an unknown option is; options of the commands above are suggested, too. -/
def unknownOption (e : Entry) (above : List Entry) (word : String) : Error :=
  let known := if "--".isPrefixOf word then (e :: above.reverse).flatMap Entry.optionNames else []
  .unknownOption word (suggestions word known)

namespace Command

/-- The member of a name. -/
def member? (c : Command) (name : String) : Option Command :=
  c.members.find? fun m ↦ m.name = name

/-- The error that an unknown member is. -/
def unknownMember (c : Command) (name : String) : Error :=
  .unknownCommand name (suggestions name (c.members.map Command.name ++ [helpMember]))

/-- The help that the member `help` of a group gives. -/
def helpOn (c : Command) (above : List Entry) (name : Option String) : Outcome :=
  match name.filter (· ≠ "") with
  | none => .help (c.help above) false above.isEmpty
  | some name =>
    match c.member? name with
    | some m => .help (m.help (above ++ [c.entry])) false false
    | none => .help (c.help above) true above.isEmpty

/-- The outcome at an action, of its plain words and sorted words. -/
def outcomeOfAction (entry : Entry) (verb : Verb) (above : List Entry) (plain : List String)
    (s : Sorted) : Outcome :=
  if askHelp s.rest then .help ((action entry verb).help above) false above.isEmpty
  else
    match s.rest with
    | word :: _ => .wrong (unknownOption entry above word) above.isEmpty
    | [] =>
      match entry.missing? plain with
      | some name => .wrong (.missingArgument name) above.isEmpty
      | none => .act verb plain s.given

/-- The outcome at a group none of whose members is named by the first plain word. -/
def outcomeOfGroup (c : Command) (above : List Entry) (plain : List String) (rest : List String) :
    Outcome :=
  match plain, rest with
  | [], [] => .help (c.help above) true above.isEmpty
  | name :: names, _ =>
    if name = helpMember then c.helpOn above names.head?
    else if askHelp rest then .help (c.help above) false above.isEmpty
    else .wrong (c.unknownMember name) above.isEmpty
  | [], word :: _ =>
    if askHelp rest then .help (c.help above) false above.isEmpty
    else .wrong (unknownOption c.entry above word) above.isEmpty

/-- The outcome of plain words and further words at a command that stands below others. -/
def outcome (c : Command) (above : List Entry) (plain ws : List String) : Outcome :=
  match _hs : sortWords c.entry true ws with
  | .error .version => .version
  | .error (.missingValue f) => .wrong (.missingValue f) above.isEmpty
  | .ok s =>
    match c with
    | action entry verb => outcomeOfAction entry verb above (plain ++ s.plain) s
    | group entry members =>
      match _hp : plain ++ s.plain with
      | [] => outcomeOfGroup (group entry members) above [] s.rest
      | name :: names =>
        match (group entry members).member? name with
        | some m => m.outcome (above ++ [entry]) names s.rest
        | none => outcomeOfGroup (group entry members) above (name :: names) s.rest
termination_by plain.length + ws.length
decreasing_by
  have hsize := size_le_of_sortWords _hs
  have hlength := congrArg List.length _hp
  simp only [Sorted.size, List.length_append, List.length_cons] at hsize hlength
  omega

/-- The outcome of a command line. Without any words it is the help screen. -/
def ofWords (program : Command) (ws : List String) : Outcome :=
  if ws.isEmpty then .help (program.help []) false true else program.outcome [] [] ws

end Command

end IndexSnapshot.CommandLine
