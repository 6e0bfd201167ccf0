import IndexSnapshot.Json.Parser
import IndexSnapshot.Json.Printer
import IndexSnapshot.Settings.Basic

/-!
# The settings file

Settings are kept in a file, which may be absent. What the file does not give, or gives with a
value of the wrong kind, has its default. A file that is no JSON text counts for nothing, and
whoever reads it is told. A string in the file may hold halves of surrogate pairs that stand alone:
they are kept when the file is read and written, and cannot be shown.
-/

namespace IndexSnapshot.Settings

open Text (Encoded)

/-- The text of the settings file, when there is one. -/
abbrev Store := Option String

/-- The text without the byte order mark that it may begin with. -/
def dropByteOrderMark (text : String) : String :=
  match text.toList with
  | '\ufeff' :: cs => String.ofList cs
  | _ => text

/-- What is said before the reason when the file is no JSON text. -/
def loadComplaint : String := "설정 파일 로드 실패, 기본값 사용:"

namespace Store

/-- There is a file, and it is no JSON text. -/
def isBroken : Store → Bool
  | none => false
  | some text => (Json.parse? (dropByteOrderMark text) Utf16).isNone

/-- What is shown on the console when the file is read. The reason is not told. -/
def complaint (store : Store) : String :=
  if store.isBroken then loadComplaint ++ " <error>\n" else ""

/-- The settings that the file gives. -/
def read : Store → Settings Utf16
  | none => defaults
  | some text =>
    match Json.parse? (dropByteOrderMark text) Utf16 with
    | some v => defaults.overlay (changes v)
    | none => defaults

/-- The settings of the file for a run, with strings that can be shown. -/
def load (store : Store) : Settings := store.read.shown

/-- The file that holds settings. -/
def ofSettings (s : Settings Utf16) : Store := some (s.toJson.indented ++ "\n")

variable {τ : Type} [Encoded τ]

/-- Why a setting is not changed. -/
inductive SetError (τ : Type := String) where
  /-- There is no setting of the name. -/
  | unknownKey (name : τ)
  /-- The value is not of the kind of the setting; there may be none at all. -/
  | wrongKind (name : τ) (value : Option (Json τ))
  deriving Repr

/-- The complaint in words. -/
def SetError.message : SetError τ → String
  | unknownKey name => "알 수 없는 설정 키: " ++ Text.shown (Encoded.units name)
  | wrongKind name value =>
    "설정 '" ++ Text.shown (Encoded.units name) ++ "'의 값 형식이 올바르지 않습니다: " ++
      value.elim "undefined" Json.compact

/-- The file after a setting has been given a value. -/
def set [DecidableEq τ] (store : Store) (name : τ) (value : Option (Json τ)) :
    Except (SetError τ) Store :=
  match SettingKey.ofName? name with
  | none => .error (.unknownKey name)
  | some _ =>
    match value.bind (change? name) with
    | none => .error (.wrongKind name value)
    | some (key, v) => .ok (ofSettings (store.read.overlay [(key, v.units)]))

/-- The file after all settings have been given their defaults. -/
def reset : Store := ofSettings defaults

end Store

end IndexSnapshot.Settings
