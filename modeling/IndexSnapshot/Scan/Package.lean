import IndexSnapshot.Listing.Page
import IndexSnapshot.Retention
import IndexSnapshot.World

/-!
# Scanning one package

The files of a package are read off its page and cut down to recent versions when there is a
budget. A page that cannot be had or read yields no files and a notice; it never stops a run.
-/

namespace IndexSnapshot.Scan

/-- What to scan packages with. -/
structure Options where
  /-- The address of the index, without a slash at its end. -/
  simpleBase : String
  retention : Option Retention.Budget
  deriving DecidableEq, Repr

/-- The address of a package's page. -/
def pageUrl (simpleBase packageName : String) : String := simpleBase ++ "/" ++ packageName ++ "/"

/-- Why a page yields no files. -/
inductive PageError where
  | failed (failure : Failure)
  /-- The body is no text. -/
  | notText
  /-- A reference on the page leads nowhere. -/
  | invalidUrl
  deriving DecidableEq, Repr

namespace PageError

/-- The reason in words. -/
def message : PageError → String
  | failed failure => failure.message
  | notText => "패키지 페이지 응답이 텍스트가 아닙니다"
  | invalidUrl => "Invalid URL"

/-- The status of the server's answer. -/
def status? : PageError → Option Nat
  | failed failure => failure.status?
  | _ => none

end PageError

/-- All files on the page at an address. -/
def listing (url : String) : Response → Except PageError (List Artifact)
  | .error failure => .error (.failed failure)
  | .ok (.string page) =>
    match Listing.artifacts? page url with
    | some artifacts => .ok artifacts
    | none => .error .invalidUrl
  | .ok _ => .error .notText

/-- The files that a package contributes, and what there is to say about it, from what its page
answers. -/
def package (options : Options) (packageName : String) (response : Response) :
    List Artifact × List Notice :=
  match listing (pageUrl options.simpleBase packageName) response with
  | .error e => ([], [.scanFailed packageName e.status? e.message])
  | .ok artifacts =>
    match options.retention with
    | none => (artifacts, [])
    | some budget => Retention.truncate packageName budget artifacts

end IndexSnapshot.Scan
