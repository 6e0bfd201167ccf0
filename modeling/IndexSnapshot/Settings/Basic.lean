import IndexSnapshot.Json.Basic

/-!
# Settings

The eight settings of the program: each has a name, a kind of value, a description and, but for
`keepRecent`, a default. A value of another kind never becomes a setting. As in JSON values, the
strings among the settings are texts unless another type of strings is given.
-/

namespace IndexSnapshot

open Text (Encoded)

/-- The value of a setting. -/
inductive SettingValue (τ : Type := String) where
  | text (s : τ)
  | number (n : Binary64)
  | flag (b : Bool)
  deriving DecidableEq, Repr

namespace SettingValue

variable {τ : Type}

/-- The value that a JSON value is, when it is one. -/
def ofJson? : Json τ → Option (SettingValue τ)
  | .string s => some (text s)
  | .number n => some (number n)
  | .bool b => some (flag b)
  | _ => none

/-- The JSON value that a value is. -/
def toJson : SettingValue τ → Json τ
  | text s => .string s
  | number n => .number n
  | flag b => .bool b

/-- The value with its string in 16-bit units. -/
def units [Encoded τ] : SettingValue τ → SettingValue Utf16
  | text s => text (Encoded.units s)
  | number n => number n
  | flag b => flag b

end SettingValue

/-- The settings. -/
structure Settings (τ : Type := String) where
  /-- The address of the index. -/
  simpleBase : τ
  /-- The address below which files are stored. -/
  packageBase : τ
  /-- How many package pages are asked for at a time. -/
  concurrentResolve : Binary64
  /-- How long to wait for a page, in milliseconds. -/
  requestTimeout : Binary64
  /-- The least important log records that are shown. -/
  logLevel : τ
  /-- Packages are chosen by a query for popular ones. -/
  bqQuery : Bool
  /-- How many recent versions of a package are kept; all if there is no number. -/
  keepRecent : Option Binary64
  /-- Only the first part of the index is read. -/
  debug : Bool
  deriving DecidableEq, Repr

/-- The name of a setting as a value. -/
inductive SettingKey where
  | simpleBase
  | packageBase
  | concurrentResolve
  | requestTimeout
  | logLevel
  | bqQuery
  | keepRecent
  | debug
  deriving DecidableEq, Repr

namespace SettingKey

/-- All settings, in the order in which they are listed. -/
def all : List SettingKey :=
  [simpleBase, packageBase, concurrentResolve, requestTimeout, logLevel, bqQuery, keepRecent,
    debug]

/-- The name of a setting. -/
def name : SettingKey → String
  | simpleBase => "simpleBase"
  | packageBase => "packageBase"
  | concurrentResolve => "concurrentResolve"
  | requestTimeout => "requestTimeout"
  | logLevel => "logLevel"
  | bqQuery => "bqQuery"
  | keepRecent => "keepRecent"
  | debug => "debug"

/-- What a setting is about. -/
def description : SettingKey → String
  | simpleBase => "Simple 인덱스 기본 URL"
  | packageBase => "패키지 파일 기본 URL"
  | concurrentResolve => "동시 조회 수"
  | requestTimeout => "요청 타임아웃 (ms)"
  | logLevel => "로그 레벨"
  | bqQuery => "BigQuery 인기 패키지 모드"
  | keepRecent => "패키지별 유지 버전 수"
  | debug => "디버그 모드 (인덱스 일부만 스캔)"

/-- The setting of a name. -/
def ofName? {τ : Type} [DecidableEq τ] [Encoded τ] (name : τ) : Option SettingKey :=
  all.find? fun key ↦ Encoded.ofString key.name = name

end SettingKey

namespace Settings

variable {τ : Type}

/-- The value of a setting; only `keepRecent` may have none. -/
def get? (s : Settings τ) : SettingKey → Option (SettingValue τ)
  | .simpleBase => some (.text s.simpleBase)
  | .packageBase => some (.text s.packageBase)
  | .concurrentResolve => some (.number s.concurrentResolve)
  | .requestTimeout => some (.number s.requestTimeout)
  | .logLevel => some (.text s.logLevel)
  | .bqQuery => some (.flag s.bqQuery)
  | .keepRecent => s.keepRecent.map .number
  | .debug => some (.flag s.debug)

/-- The settings with a new value for one of them; nothing if the value is of the wrong kind. -/
def put? (s : Settings τ) : SettingKey → SettingValue τ → Option (Settings τ)
  | .simpleBase, .text t => some { s with simpleBase := t }
  | .packageBase, .text t => some { s with packageBase := t }
  | .concurrentResolve, .number n => some { s with concurrentResolve := n }
  | .requestTimeout, .number n => some { s with requestTimeout := n }
  | .logLevel, .text t => some { s with logLevel := t }
  | .bqQuery, .flag b => some { s with bqQuery := b }
  | .keepRecent, .number n => some { s with keepRecent := some n }
  | .debug, .flag b => some { s with debug := b }
  | _, _ => none

/-- The settings as they are shown: half of a surrogate pair that stands alone is no character. -/
def shown (s : Settings Utf16) : Settings :=
  { s with
    simpleBase := Text.shown s.simpleBase
    packageBase := Text.shown s.packageBase
    logLevel := Text.shown s.logLevel }

/-- New values for settings, all of the right kind. -/
abbrev Changes (τ : Type := String) := List (SettingKey × SettingValue τ)

/-- The settings after changes made one after the other. -/
def overlay (s : Settings τ) (cs : Changes τ) : Settings τ :=
  cs.foldl (fun s (key, value) ↦ (s.put? key value).getD s) s

/-- The order in which settings stand in a file. -/
def fileOrder : List SettingKey :=
  [.simpleBase, .packageBase, .concurrentResolve, .requestTimeout, .logLevel, .bqQuery, .debug,
    .keepRecent]

section

variable [Encoded τ]

/-- The settings that a run starts from. -/
def defaults : Settings τ where
  simpleBase := Encoded.ofString "https://mirrors.tuna.tsinghua.edu.cn/pypi/web/simple"
  packageBase := Encoded.ofString "https://mirrors.tuna.tsinghua.edu.cn/pypi/web/packages"
  concurrentResolve := 64
  requestTimeout := 30000
  logLevel := Encoded.ofString "info"
  bqQuery := false
  keepRecent := none
  debug := false

/-- A value is of the kind of a setting. -/
def fits (key : SettingKey) (value : SettingValue τ) : Bool := (defaults.put? key value).isSome

/-- The change that a name and a JSON value make: the name must be that of a setting, and the
value of its kind. -/
def change? [DecidableEq τ] (name : τ) (value : Json τ) :
    Option (SettingKey × SettingValue τ) := do
  let key ← SettingKey.ofName? name
  let v ← SettingValue.ofJson? value
  if fits key v then some (key, v) else none

/-- The changes that the members of an object make; anything else makes none. -/
def changes [DecidableEq τ] : Json τ → Changes τ
  | .object members => members.filterMap fun (name, value) ↦ change? name value
  | _ => []

/-- The settings that have a value, with their names, in the order of a file. -/
def members (s : Settings τ) : List (τ × Json τ) :=
  fileOrder.filterMap fun key ↦ (s.get? key).map fun v ↦ (Encoded.ofString key.name, v.toJson)

/-- The settings as a JSON object. -/
def toJson (s : Settings τ) : Json τ := .object s.members

end

end Settings

end IndexSnapshot
