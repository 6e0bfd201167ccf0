import IndexSnapshot.CommandLine.Basic

/-!
# Help screens

The screen of a command: how it is written, what it does, and its arguments, options and members,
each with a note in a column of its own.
-/

namespace IndexSnapshot.CommandLine

/-- A line of a section: a term and what is said of it. -/
structure HelpItem where
  term : String
  note : String
  deriving DecidableEq, Repr

/-- Words with a blank between them. -/
def words (ws : List String) : String := String.intercalate " " ws

namespace Entry

/-- The forms of the arguments. -/
def positionalForms (e : Entry) : List String := e.positionals.map Positional.form

/-- The entry has options besides that for help. -/
def hasOptions (e : Entry) : Bool := e.versionNote.isSome || !e.flags.isEmpty

/-- The term under which a group lists the command. -/
def term (e : Entry) : String :=
  words (e.name :: (if e.hasOptions then ["[options]"] else []) ++ e.positionalForms)

/-- The lines about arguments. -/
def argumentItems (e : Entry) : List HelpItem := e.positionals.map fun p ↦ ⟨p.name, p.description⟩

/-- The lines about options. -/
def optionItems (e : Entry) : List HelpItem :=
  (e.versionNote.map fun note ↦ (⟨"-v, --version", note⟩ : HelpItem)).toList ++
    (e.flags.map fun f ↦ ⟨f.form, f.description⟩) ++ [⟨words ["-h,", "--help"], e.helpNote⟩]

end Entry

namespace Command

/-- The lines about members. -/
def memberItems : Command → List HelpItem
  | action _ _ => []
  | group _ members =>
    (members.map fun c ↦ ⟨c.entry.term, c.entry.description⟩) ++
      [⟨words [helpMember, "[command]"], "display help for command"⟩]

/-- How the command is written, behind the names of those above it. -/
def usage (c : Command) (above : List Entry) : String :=
  words <| above.map Entry.name ++ [c.name, "[options]"] ++
    (if c.isGroup then ["[command]"] else []) ++ c.entry.positionalForms

/-- A line of a section, its note beginning at a column. -/
def itemLine (column : Nat) (item : HelpItem) : String :=
  "  " ++ item.term ++ String.ofList (List.replicate (column - item.term.length) ' ') ++ item.note

/-- A section with its heading and a blank line at its end; nothing if it has no lines. -/
def helpSection (column : Nat) (heading : String) (items : List HelpItem) : List String :=
  if items.isEmpty then [] else heading :: items.map (itemLine column) ++ [""]

/-- The lines of the screen. All notes begin two blanks behind the longest term. -/
def helpLines (c : Command) (above : List Entry) : List String :=
  let items := c.entry.argumentItems ++ c.entry.optionItems ++ c.memberItems
  let column := (items.map fun item ↦ item.term.length).foldl max 0 + 2
  ["Usage: " ++ c.usage above, "", c.entry.description, ""] ++
    helpSection column "Arguments:" c.entry.argumentItems ++
    helpSection column "Options:" c.entry.optionItems ++
    helpSection column "Commands:" c.memberItems

/-- The screen of a command that stands below others. -/
def help (c : Command) (above : List Entry) : String := String.intercalate "\n" (c.helpLines above)

end Command

end IndexSnapshot.CommandLine
