import IndexSnapshot.CommandLine.Parser
import IndexSnapshot.RunOptions

/-!
# The commands of this program

What the program understands: taking a snapshot, telling the addresses of entries, and looking at
or changing the settings.
-/

namespace IndexSnapshot.CommandLine

/-- The version of the program. -/
def version : String := "1.0.0"

/-- The note on help of the commands that stand in the first row. -/
def helpNote : String := "도움말 표시"

/-- The note on help of the commands below `config`. -/
def plainHelpNote : String := "display help for command"

/-- The option for the base address of files. -/
def packageBaseFlag : Flag := ⟨"--package-base", some "url", "패키지 파일 기본 URL"⟩

/-- The options of a snapshot. -/
def snapshotFlags : List Flag :=
  [⟨"--simple-base", some "url", "Simple 인덱스 기본 URL"⟩, packageBaseFlag,
    ⟨"--bq-query", none, "BigQuery로 다운로드 상위 1000개 패키지만 선택 (PROJECT_ID 필요)"⟩,
    ⟨"--keep-recent", some "num", "패키지별 최근 N개 버전만 유지"⟩,
    ⟨"--debug", none, "인덱스 앞부분만 스캔 (운영 미러에서는 삭제 없이 동기화할 것)"⟩,
    ⟨"--concurrency", some "num", "패키지 페이지 동시 조회 수"⟩]

/-- The command that takes a snapshot. -/
def snapshotCommand : Command :=
  .action
    { name := "snapshot"
      description := "패키지 인덱스를 스캔해서 스냅샷 항목을 stdout으로 출력"
      versionNote := none
      flags := snapshotFlags
      positionals := []
      helpNote }
    .snapshot

/-- The command that tells the addresses of entries. -/
def resolveCommand : Command :=
  .action
    { name := "resolve"
      description := "스냅샷 항목을 다운로드 URL로 변환"
      versionNote := none
      flags := [packageBaseFlag]
      positionals := [⟨"entries", true, true, "스냅샷 항목 (packageBase 기준 상대 경로)"⟩]
      helpNote }
    .resolve

/-- A command about settings, which has no options. -/
def settingCommand (name description : String) (positionals : List Positional) (verb : Verb) :
    Command :=
  .action
    { name, description, versionNote := none, flags := [], positionals, helpNote := plainHelpNote }
    verb

/-- The commands about settings. -/
def configCommand : Command :=
  .group
    { name := "config"
      description := "설정 관리"
      versionNote := none
      flags := []
      positionals := []
      helpNote }
    [settingCommand "get" "설정값 조회" [⟨"key", false, false, "설정 키"⟩] .configGet,
      settingCommand "set" "설정값 변경"
        [⟨"key", true, false, "설정 키"⟩, ⟨"value", true, false, "설정값"⟩] .configSet,
      settingCommand "list" "모든 설정 표시" [] .configList,
      settingCommand "reset" "설정 초기화" [] .configReset]

/-- The program. -/
def program : Command :=
  .group
    { name := "pypi-snapshot"
      description := "pypi-snapshot - PyPI 미러 동기화용 스냅샷 생성기"
      versionNote := some "버전 정보 표시"
      flags := []
      positionals := []
      helpNote }
    [snapshotCommand, resolveCommand, configCommand]

/-- What the program is asked to do. -/
inductive Request where
  | snapshot (options : RunOptions)
  /-- The base is that of the settings if none is given. -/
  | resolve (entries : List String) (packageBase : Option String)
  /-- All settings are shown if none is named. -/
  | configGet (key : Option String)
  | configSet (key value : String)
  | configList
  | configReset
  deriving DecidableEq, Repr

namespace Given

/-- The option of a name is given. -/
def has (given : Given) (name : String) : Bool := given.any fun (f, _) ↦ f.name = name

/-- The value that is given last for an option. -/
def last? (given : Given) (name : String) : Option String :=
  ((given.reverse.find? fun (f, _) ↦ f.name = name).map Prod.snd).join

/-- The options of a run. -/
def runOptions (given : Given) : RunOptions :=
  { simpleBase := last? given "--simple-base"
    packageBase := last? given "--package-base"
    bqQuery := has given "--bq-query"
    keepRecent := last? given "--keep-recent"
    debug := has given "--debug"
    concurrency := last? given "--concurrency" }

end Given

/-- What an action with its arguments and options asks for. Words beyond the arguments that an
action has are passed over. -/
def Verb.request (verb : Verb) (arguments : List String) (given : Given) : Request :=
  match verb with
  | .snapshot => .snapshot (Given.runOptions given)
  | .resolve => .resolve arguments (Given.last? given "--package-base")
  | .configGet => .configGet arguments.head?
  | .configSet => .configSet (arguments.getD 0 "") (arguments.getD 1 "")
  | .configList => .configList
  | .configReset => .configReset

end IndexSnapshot.CommandLine
