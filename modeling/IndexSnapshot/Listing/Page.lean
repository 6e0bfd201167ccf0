import IndexSnapshot.Listing.Anchor
import IndexSnapshot.Url.Printer

/-!
# Pages of a package index

The root page of an index lists packages: the text of each anchor is a name. The page of a package
lists its files: the text of each anchor is a file name, and the reference, resolved against the
address of the page, tells where the file is. Checksums travel in the query or the fragment of
the reference, and both are left out.
-/

namespace IndexSnapshot

/-- A file that the page of a package lists. -/
structure Artifact where
  url : String
  filename : String
  deriving DecidableEq, Repr

namespace Listing

/-- The names on a root page; anchors whose text is blank name nothing. -/
def names (page : String) : List String :=
  ((Anchor.all page).map Anchor.text).filter fun name ↦ name ≠ ""

/-- The file that an anchor leads to from the page at an address. -/
def artifact? (pageUrl : String) (anchor : Anchor) : Option Artifact := do
  let url ← Url.parse? (← Url.parse? none pageUrl) anchor.href
  return { url := ← Url.cleaned? url.href, filename := anchor.text }

/-- The files on the page of a package; nothing when a reference leads nowhere. The address of
the page matters only when the page has anchors. -/
def artifacts? (page : String) (pageUrl : String) : Option (List Artifact) :=
  (Anchor.all page).mapM (artifact? pageUrl)

end Listing

end IndexSnapshot
