import IndexSnapshot.CommandLine.Run
import IndexSnapshot.Log.Console
import Std.Time.DateTime.Timestamp

/-!
# The program

The outer layer: it reads the settings file and the environment, has the library work out what a
command line comes to, and writes what the report says. It has no way to ask a server, so that for
it every page is out of reach.
-/

namespace IndexSnapshot

/-- The variables that the program looks at. -/
def knownVariables : List String :=
  ["PROJECT_ID", "GOOGLE_APPLICATION_CREDENTIALS"] ++ Proxy.sources.map Prod.fst

/-- A world in which nothing can be reached. -/
def silentWorld : World :=
  { fetch := fun url ↦ .error (.error ("unreachable: " ++ url))
    warehouse := .unreachable "unreachable" }

/-- A number with two digits. -/
def twoDigits (n : Nat) : String := if n < 10 then "0" ++ toString n else toString n

/-- The time of day, from a number of seconds since some midnight. -/
def timeOfDay (seconds : Nat) : String :=
  twoDigits (seconds / 3600 % 24) ++ ":" ++ twoDigits (seconds / 60 % 60) ++ ":" ++
    twoDigits (seconds % 60)

/-- The values of the known variables that are set. -/
def readVariables : IO (List (String × String)) := do
  let values ← knownVariables.mapM fun name ↦ do return (name, ← IO.getEnv name)
  return values.filterMap fun (name, value) ↦ value.map fun v ↦ (name, v)

/-- The text of the settings file, when there is one. -/
def readStore (directory : Settings.Directory) : IO Settings.Store := do
  try return some (← IO.FS.readFile directory.settingsFile) catch _ => return none

/-- Leaves a settings file behind. -/
def writeStore (directory : Settings.Directory) (store : Settings.Store) : IO Unit := do
  IO.FS.createDirAll directory.path
  store.forM (IO.FS.writeFile directory.settingsFile)

end IndexSnapshot

open IndexSnapshot in
/-- Runs the program on the words of a command line. -/
def main (ws : List String) : IO UInt32 := do
  let directory := Settings.Directory.ofHome ((← IO.getEnv "HOME").getD "")
  let environment := Environment.ofList (← readVariables)
  let store ← readStore directory
  let report := CommandLine.run ⟨environment, silentWorld, directory⟩ store ws
  unless report.store = store do writeStore directory report.store
  let console : Log.Console := { threshold := store.load.logLevel }
  let now ← Std.Time.Timestamp.now
  let clock := timeOfDay now.toSecondsSinceUnixEpoch.val.toNat
  IO.print (report.output console clock)
  IO.eprint (report.complaints console clock)
  return report.exitCode.toUInt32
