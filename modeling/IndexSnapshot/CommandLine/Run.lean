import IndexSnapshot.Client
import IndexSnapshot.CommandLine.Program
import IndexSnapshot.Log.Console
import IndexSnapshot.Settings.Directory
import IndexSnapshot.Settings.Store
import IndexSnapshot.Settings.Text
import IndexSnapshot.Source
import IndexSnapshot.Table

/-!
# Doing what a command line asks for

A run of the program is a function of its words, of the settings file, of the environment, and of
the answers that the world gives. It comes to what is written, the file that is left, and all that
has happened. Entries of a snapshot are written only when the snapshot is complete.
-/

namespace IndexSnapshot.CommandLine

/-- What a run of the program stands in. -/
structure Surroundings where
  environment : Environment
  world : World
  /-- Where settings are kept. -/
  directory : Settings.Directory

/-- What a run of the program comes to. -/
structure Report where
  exitCode : Nat
  stdout : String
  stderr : String
  /-- The settings file after the run. -/
  store : Settings.Store
  /-- All that has happened. -/
  events : List Event
  /-- The requests that have gone out. -/
  sent : List Client.Outgoing

namespace Report

/-- The report of a run that has written some text and leaves the file as it is. -/
def done (store : Settings.Store) (stdout stderr : String) : Report :=
  ⟨0, stdout, stderr, store, [], []⟩

/-- The report of a run that has failed with some complaint. -/
def failed (store : Settings.Store) (stderr : String) : Report := ⟨1, "", stderr, store, [], []⟩

/-- All that a run writes to the output while a console shows what is logged. -/
def output (r : Report) (console : Log.Console) (clock : String) : String :=
  console.written clock .output (Event.notices r.events) ++ r.stdout

/-- All that a run writes to the complaints while a console shows what is logged. -/
def complaints (r : Report) (console : Log.Console) (clock : String) : String :=
  console.written clock .complaints (Event.notices r.events) ++ r.stderr

end Report

/-- Why no snapshot is taken. -/
inductive SnapshotError where
  | options (e : RunOptions.Error)
  | config (e : Config.Error)
  | proxy (e : Proxy.Error)
  | source (e : Source.Error)
  deriving DecidableEq, Repr

/-- The failure in words. -/
def SnapshotError.message : SnapshotError → String
  | options e => e.message
  | config e => e.message
  | proxy e => e.message
  | source e => e.message

/-- What a snapshot is taken with: the configuration that settings and options give, and the
client. -/
def prepare (env : Environment) (settings : Settings) (options : RunOptions) :
    Except SnapshotError (Config × Client) := do
  let changes ← options.changes.mapError .options
  let config ← (Config.resolve settings changes env).mapError .config
  let rules ← (Proxy.collect env).mapError .proxy
  return (config, { timeout := config.requestTimeout, rules })

/-- The lines of texts. -/
def asLines (texts : List String) : String := String.join (texts.map fun s ↦ s ++ "\n")

/-- The complaint about a snapshot that is not taken. -/
def snapshotComplaint (e : SnapshotError) : String :=
  "✗ 스냅샷 생성 실패\n오류: " ++ e.message ++ "\n"

/-- Takes a snapshot. The settings file is read twice, once for the log and once for the run. -/
def takeSnapshot (s : Surroundings) (store : Settings.Store) (options : RunOptions) : Report :=
  let complaints := store.complaint ++ store.complaint
  let ready : Event := .notice (.logReady s.directory.logs)
  match prepare s.environment store.load options with
  | .error e =>
    { Report.failed store (complaints ++ snapshotComplaint e) with events := [ready] }
  | .ok (config, client) =>
    let world := { s.world with fetch := client.fetch s.world.fetch }
    let (answer, happened) := Source.snapshot world config
    let report : Report :=
      match answer with
      | some (.ok entries) =>
        .done store (asLines entries)
          (complaints ++ "✓ 스냅샷 완료: " ++ toString entries.length ++ "개 항목\n")
      | some (.error e) => .failed store (complaints ++ snapshotComplaint (.source e))
      | none => .failed store complaints
    { report with
      events := ready :: .notice (.usingSource (Source.info config)) :: happened
      sent := client.sent (Event.requests happened) }

/-- Tells the addresses of entries. The settings file is read only if no base is given. -/
def resolve (store : Settings.Store) (entries : List String) (packageBase : Option String) :
    Report :=
  let complaint := if packageBase.isSome then "" else store.complaint
  let base := packageBase.getD store.load.packageBase
  if entries.isEmpty then .failed store (complaint ++ "스냅샷 항목을 하나 이상 지정하세요\n")
  else .done store (asLines (entries.map fun e ↦ Assembly.address e base)) complaint

/-- Shows a setting, or all of them. -/
def configGet (store : Settings.Store) (key : Option String) : Report :=
  let settings := store.read
  let text :=
    match key.filter (· ≠ "") with
    | none => "\n현재 설정:\n" ++ settings.toJson.indented ++ "\n"
    | some name =>
      match (SettingKey.ofName? name).bind settings.get? with
      | some value => name ++ ": " ++ value.toJson.compact ++ "\n"
      | none => "설정 '" ++ name ++ "'를 찾을 수 없습니다\n"
  .done store text store.complaint

/-- Gives a setting a value. The file is read only once the setting and the value are known to
fit. -/
def configSet (store : Settings.Store) (key value : String) : Report :=
  let read := (SettingValue.ofText value).toJson
  match store.set key (some read) with
  | .error e => .failed store ("설정 저장 실패: " ++ e.message ++ "\n")
  | .ok after =>
    .done after ("✓ 설정이 저장되었습니다: " ++ key ++ " = " ++ read.compact ++ "\n")
      store.complaint

/-- The table of all settings. -/
def settingsTable (settings : Settings) : Table :=
  { widths := [20, 60, 30]
    rows :=
      ["설정", "값", "설명"] :: SettingKey.all.map fun key ↦
        [key.name, (settings.get? key).elim "-" SettingValue.plain, key.description] }

/-- Lists all settings. -/
def configList (store : Settings.Store) : Report :=
  .done store ("\n설정 목록:\n\n" ++ (settingsTable store.load).text) store.complaint

/-- Gives all settings their defaults. -/
def configReset : Report := .done Settings.Store.reset "✓ 설정이 초기화되었습니다\n" ""

/-- Does what the program is asked to do. -/
def perform (s : Surroundings) (store : Settings.Store) : Request → Report
  | .snapshot options => takeSnapshot s store options
  | .resolve entries packageBase => resolve store entries packageBase
  | .configGet key => configGet store key
  | .configSet key value => configSet store key value
  | .configList => configList store
  | .configReset => configReset

/-- Does what a command line comes to. Help that is asked for goes to the output, other help to
the complaints; only a command, not the program, counts the latter as a failure. What the program
itself finds wrong is said twice. -/
def follow (s : Surroundings) (store : Settings.Store) : Outcome → Report
  | .version => .done store (version ++ "\n") ""
  | .help screen false _ => .done store screen ""
  | .help screen true true => .done store "" screen
  | .help screen true false => .failed store screen
  | .wrong e false => .failed store (e.message ++ "\n")
  | .wrong e true => .failed store (e.message ++ "\n오류: " ++ e.message ++ "\n")
  | .act verb arguments given => perform s store (verb.request arguments given)

/-- A run of the program on the words of a command line. -/
def run (s : Surroundings) (store : Settings.Store) (ws : List String) : Report :=
  follow s store (program.ofWords ws)

end IndexSnapshot.CommandLine
