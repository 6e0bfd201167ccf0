import IndexSnapshot.Number.Numeral
import IndexSnapshot.Settings.Basic

/-!
# Options of one run

A run may be given other settings than those in the file. Numbers are given as texts; a text that
is no integer is an error, and of two such texts the number of versions is the one at fault.
-/

namespace IndexSnapshot

/-- The options of a run, as they are given. -/
structure RunOptions where
  simpleBase : Option String := none
  packageBase : Option String := none
  bqQuery : Bool := false
  keepRecent : Option String := none
  debug : Bool := false
  concurrency : Option String := none
  deriving DecidableEq, Repr

namespace RunOptions

/-- Why options are of no use. -/
inductive Error where
  /-- The text given for an option is no integer. -/
  | notInteger (option value : String)
  deriving DecidableEq, Repr

/-- The complaint in words. -/
def Error.message : Error → String
  | notInteger option value => option ++ "은(는) 정수여야 합니다: " ++ value

/-- The integer that a text stands for. -/
def integer (option value : String) : Except Error Binary64 :=
  match (Number.ofText? value).filter Binary64.isInteger with
  | some n => .ok n
  | none => .error (.notInteger option value)

/-- The change that a number makes, when it is given. -/
def numberChange (key : SettingKey) (option : String) :
    Option String → Except Error Settings.Changes
  | none => .ok []
  | some value => do return [(key, .number (← integer option value))]

/-- The change that a text makes, when it is given. -/
def textChange (key : SettingKey) (value : Option String) : Settings.Changes :=
  (value.map fun s ↦ (key, SettingValue.text s)).toList

/-- The change that a flag makes; a flag can only be raised. -/
def flagChange (key : SettingKey) (raised : Bool) : Settings.Changes :=
  if raised then [(key, .flag true)] else []

/-- The changes of settings that options make. -/
def changes (options : RunOptions) : Except Error Settings.Changes := do
  let keepRecent ← numberChange .keepRecent "--keep-recent" options.keepRecent
  let concurrency ← numberChange .concurrentResolve "--concurrency" options.concurrency
  return textChange .simpleBase options.simpleBase ++
    textChange .packageBase options.packageBase ++ flagChange .bqQuery options.bqQuery ++
    flagChange .debug options.debug ++ keepRecent ++ concurrency

end RunOptions

end IndexSnapshot
