import IndexSnapshot.Discovery.Strategy
import IndexSnapshot.Number.Shortest
import IndexSnapshot.Retention
import IndexSnapshot.Settings.Basic
import IndexSnapshot.Url.Parser

/-!
# The configuration of a run

Settings are checked before a run, one after the other, and the first that will not do stops it.
What is left is what a run needs to know.
-/

namespace IndexSnapshot

/-- What a run needs to know. -/
structure Config where
  simpleBase : String
  packageBase : String
  strategy : Discovery.Strategy
  retention : Option Retention.Budget
  concurrentResolve : Binary64
  requestTimeout : Binary64
  deriving DecidableEq, Repr

namespace Config

/-- Why settings will not do. -/
inductive Error where
  | notUrl (key : SettingKey) (value : String)
  | notWeb (key : SettingKey) (value : String)
  | notPositiveInteger (key : SettingKey) (value : Binary64)
  /-- Nobody pays for the query for popular packages. -/
  | noProject
  deriving DecidableEq, Repr

/-- The complaint in words. -/
def Error.message : Error → String
  | notUrl key value => key.name ++ "이(가) 올바른 URL이 아닙니다: " ++ value
  | notWeb key value => key.name ++ "은(는) http(s) URL이어야 합니다: " ++ value
  | notPositiveInteger key value => key.name ++ "은(는) 양의 정수여야 합니다: " ++ value.text
  | noProject => "환경 변수 PROJECT_ID가 필요합니다 (BigQuery 모드)"

/-- The text is the address of a web page. -/
def checkUrl (key : SettingKey) (value : String) : Except Error Unit :=
  match Url.parse? none value with
  | none => .error (.notUrl key value)
  | some url => if url.isWeb then .ok () else .error (.notWeb key value)

/-- The number is a positive integer. -/
def checkCount (key : SettingKey) (value : Binary64) : Except Error Unit :=
  if value.isPositiveInteger then .ok () else .error (.notPositiveInteger key value)

/-- The address without the slashes at its end. -/
def dropSlashes (base : String) : String :=
  String.ofList (base.toList.reverse.dropWhile (· = '/')).reverse

/-- The project that pays for queries. -/
def projectId (env : Environment) : Except Error String :=
  match Discovery.projectId? env with
  | some id => .ok id
  | none => .error .noProject

/-- The way to find packages that settings choose. -/
def chooseStrategy (s : Settings) (env : Environment) : Except Error Discovery.Strategy :=
  if s.bqQuery then do
    let project ← projectId env
    return .popularity project (.ofEnvironment env) s.debug
  else .ok (.fullIndex (dropSlashes s.simpleBase) s.debug)

/-- The configuration that settings give in an environment. -/
def ofSettings (s : Settings) (env : Environment) : Except Error Config := do
  checkUrl .simpleBase s.simpleBase
  checkUrl .packageBase s.packageBase
  checkCount .concurrentResolve s.concurrentResolve
  checkCount .requestTimeout s.requestTimeout
  match s.keepRecent with
  | some n => checkCount .keepRecent n
  | none => pure ()
  let strategy ← chooseStrategy s env
  return {
    simpleBase := dropSlashes s.simpleBase
    packageBase := s.packageBase
    strategy
    retention := s.keepRecent.map fun n ↦ ⟨n⟩
    concurrentResolve := s.concurrentResolve
    requestTimeout := s.requestTimeout }

/-- The configuration that settings give after changes for one run. -/
def resolve (s : Settings) (changes : Settings.Changes) (env : Environment) :
    Except Error Config :=
  ofSettings (s.overlay changes) env

end Config

end IndexSnapshot
