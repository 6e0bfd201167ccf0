import IndexSnapshot.Listing.Page
import IndexSnapshot.Log.Notice
import IndexSnapshot.Text.Literal

/-!
# Snapshot entries

A snapshot names files by their place below a base address. Files that are stored elsewhere are
left out with a notice. Putting the base in front of an entry gives the address of the file back.
-/

namespace IndexSnapshot.Assembly

/-- The address with a slash at its end. -/
def withSlash (base : String) : String :=
  if base.toList.getLast? = some '/' then base else base ++ "/"

/-- The place of a file below a base that ends in a slash, when the file is below it. -/
def place? (base url : String) : Option String :=
  (Text.strip? base.toList url.toList).map String.ofList

/-- The entries of the files below a base, in order and with repetitions. -/
def entries (base : String) (urls : List String) : List String := urls.filterMap (place? base)

/-- The notices about the files that are not below a base. -/
def outside (base : String) (urls : List String) : List Notice :=
  (urls.filter fun url ↦ (place? base url).isNone).map fun url ↦ .outsideBase url base

/-- The addresses of all files found, package after package. -/
def addresses (results : List (List Artifact)) : List String := results.flatten.map Artifact.url

/-- The snapshot of all files found, and what there is to say about it. -/
def assemble (results : List (List Artifact)) (packageBase : String) :
    List String × List Notice :=
  let base := withSlash packageBase
  (entries base (addresses results), outside base (addresses results))

/-- The address of the file that an entry names. -/
def address (entry packageBase : String) : String := withSlash packageBase ++ entry

end IndexSnapshot.Assembly
