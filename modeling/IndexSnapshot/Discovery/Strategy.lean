import IndexSnapshot.Environment
import IndexSnapshot.Event

/-!
# Ways to find packages

Packages are found on the root page of the index, or by a query for those that are installed most
often. The query is paid for by a project, and the right to make it comes from a key file or from
the machine that the program runs on.
-/

namespace IndexSnapshot.Discovery

/-- Where the right to make queries comes from. -/
inductive Credentials where
  | serviceAccount (keyFile : String)
  | instanceMetadata
  deriving DecidableEq, Repr

/-- The key file that credentials name. -/
def Credentials.keyFile? : Credentials → Option String
  | serviceAccount keyFile => some keyFile
  | instanceMetadata => none

/-- The credentials that the environment gives: a key file if it names one. -/
def Credentials.ofEnvironment (env : Environment) : Credentials :=
  match env.get? "GOOGLE_APPLICATION_CREDENTIALS" with
  | some keyFile => serviceAccount keyFile
  | none => instanceMetadata

/-- The project that pays for queries, when the environment names one. -/
def projectId? (env : Environment) : Option String := env.get? "PROJECT_ID"

/-- How the packages of a run are found. -/
inductive Strategy where
  /-- All packages of the index; in debug mode only those on the first part of its root page. -/
  | fullIndex (simpleBase : String) (debug : Bool)
  /-- The packages that are installed most often; there is no debug mode. -/
  | popularity (projectId : String) (credentials : Credentials) (debug : Bool)
  deriving DecidableEq, Repr

/-- The name of a strategy's kind. -/
def Strategy.kind : Strategy → String
  | fullIndex .. => "full-index"
  | popularity .. => "popularity"

end IndexSnapshot.Discovery
