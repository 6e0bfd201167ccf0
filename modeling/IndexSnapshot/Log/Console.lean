import IndexSnapshot.Log.Line
import IndexSnapshot.Log.Notice
import IndexSnapshot.Settings.Directory
import IndexSnapshot.Settings.Store

/-!
# The log on the console

The console shows the records that matter enough. What is enough is told by the name of a level,
which the settings give once the console is set up; until then it is `info`. Records that tell of an
exception which nobody has caught are not for the console, and a mark among the fields says so.
-/

namespace IndexSnapshot.Log

/-- The names of thresholds, the strictest first. -/
def thresholds : List String := ["error", "warn", "info", "http", "verbose", "debug", "silly"]

/-- A record of a level passes a threshold: every record passes the empty one, and none a
threshold of another name. -/
def passes (threshold : String) (l : Level) : Bool :=
  threshold = "" ||
    match thresholds.idxOf? threshold, thresholds.idxOf? l.name with
    | some bound, some i => i ≤ bound
    | _, _ => false

/-- Where a program writes to. -/
inductive Channel where
  | output
  | complaints
  deriving DecidableEq, Repr

/-- The names of the levels whose records the console writes to the complaints. -/
def complaintLevels : List String := ["error", "warn", "info", "http", "verbose", "debug", "silly"]

/-- Where the console writes the records of a level to. -/
def Level.channel (l : Level) : Channel :=
  if complaintLevels.contains l.name then .complaints else .output

@[simp] theorem Level.channel_eq (l : Level) : l.channel = .complaints := by
  cases l <;> decide

/-- The entry is marked as telling of an exception. -/
def Entry.isException (e : Entry) : Bool :=
  match e.fields.lookup "exception" with
  | some (.bool b) => b
  | _ => false

/-- A console. -/
structure Console where
  threshold : String := "info"
  isSetUp : Bool := false
  deriving DecidableEq, Repr

namespace Console

/-- What the console shows for a record, if the record can be written. -/
def print (c : Console) (clock : String) (r : Record) : Except WriteError String :=
  r.entry.map fun e ↦
    if passes c.threshold r.level && !e.isException then line clock r.level e else ""

/-- What the console shows for a notice, which can always be written. -/
def tell (c : Console) (clock : String) (n : Notice) : String :=
  (c.print clock n.record).toOption.getD ""

theorem print_record (c : Console) (clock : String) (n : Notice) :
    c.print clock n.record = .ok (c.tell clock n) := by
  have h : ∀ fields ∈ n.record.fields, "message" ∉ fields.map Prod.fst := by
    cases n with
    | scanFailed p status r => cases status <;> simp [Notice.record, Notice.fields]
    | _ => simp [Notice.record, Notice.fields]
  obtain ⟨e, h⟩ := exists_entry_of_notMem h
  simp [Console.tell, Console.print, h, Except.map, Except.toOption]

/-- What the console writes to a channel for notices. -/
def written (c : Console) (clock : String) (channel : Channel) (notices : List Notice) : String :=
  String.join ((notices.filter fun n ↦ n.level.channel = channel).map fun n ↦ c.tell clock n)

/-- **The console writes nothing to the output.** -/
@[simp] theorem written_output (c : Console) (clock : String) (notices : List Notice) :
    c.written clock .output notices = "" := by
  have hnone : notices.filter (fun n ↦ n.level.channel = .output) = [] :=
    List.filter_eq_nil_iff.2 (by simp)
  rw [written, hnone, List.map_nil, String.join_nil]

/-- The console set up by the settings of a store, and what it shows meanwhile. A console that is
set up stays as it is. -/
def setUp (c : Console) (clock : String) (directory : Settings.Directory)
    (store : Settings.Store) : Console × String :=
  if c.isSetUp then (c, "")
  else
    let after : Console := ⟨store.load.logLevel, true⟩
    (after, store.complaint ++ after.tell clock (.logReady directory.logs))

end Console

end IndexSnapshot.Log
