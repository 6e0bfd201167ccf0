import IndexSnapshot.Discovery.Popularity
import IndexSnapshot.Discovery.Strategy
import IndexSnapshot.Listing.Page
import IndexSnapshot.Text.Units
import IndexSnapshot.World

/-!
# Finding packages

The names of all packages that a run is to scan. Either all of them are found or none.
-/

namespace IndexSnapshot.Discovery

/-- How much of the root page is read in debug mode, in 16-bit units. -/
def debugLength : Nat := 1000

/-- Why no packages are found. -/
inductive Error where
  /-- The root page could not be had. -/
  | indexFailed (reason : String)
  /-- The root page is no text. -/
  | indexNotText
  /-- The query could not be made, or its rows are at fault. -/
  | queryFailed (reason : String)
  deriving DecidableEq, Repr

namespace Error

/-- The kind of the strategy that failed. -/
def kind : Error → String
  | indexFailed _ | indexNotText => "full-index"
  | queryFailed _ => "popularity"

/-- The failure in words. -/
def message : Error → String
  | indexFailed reason => "인덱스 다운로드 실패: " ++ reason
  | indexNotText => "인덱스 응답이 텍스트가 아닙니다"
  | queryFailed reason => "BigQuery 조회 실패: " ++ reason

end Error

/-- The names on a root page; in debug mode only its first part is read, and an anchor that is
cut in two is not there. -/
def namesOnPage (page : String) (debug : Bool) : List String :=
  Listing.names <|
    if debug then String.ofList (Text.takeUnits debugLength page.toList) else page

/-- The names on the root page of the index, and what happens meanwhile. -/
def fromIndex (world : World) (simpleBase : String) (debug : Bool) :
    Except Error (List String) × List Event :=
  let url := simpleBase ++ "/"
  let asked : List Event := [.notice (.fetchingIndex simpleBase), .request url]
  match world.fetch url with
  | .error failure => (.error (.indexFailed failure.message), asked)
  | .ok (.string page) => (.ok (namesOnPage page debug), asked ++ [.notice .readingIndex])
  | .ok _ => (.error .indexNotText, asked)

/-- The names that the query answers, and what happens meanwhile. -/
def fromWarehouse (warehouse : Warehouse) (projectId : String) (credentials : Credentials)
    (debug : Bool) : Except Error (List String) × List Event :=
  let said : List Event :=
    (if debug then [.notice .debugIgnored] else []) ++ [.notice (.querying projectId)]
  let asked : List Event := said ++ [.query ⟨projectId, credentials.keyFile?⟩]
  match warehouse with
  | .unreachable message => (.error (.queryFailed message), said)
  | .refusing message => (.error (.queryFailed message), asked)
  | .answering values =>
    match rowNames (rows values) with
    | .ok names => (.ok names, asked)
    | .error e => (.error (.queryFailed e.message), asked)

/-- The names that a strategy finds, and what happens meanwhile. -/
def run (world : World) : Strategy → Except Error (List String) × List Event
  | .fullIndex simpleBase debug => fromIndex world simpleBase debug
  | .popularity projectId credentials debug =>
    fromWarehouse world.warehouse projectId credentials debug

end IndexSnapshot.Discovery
