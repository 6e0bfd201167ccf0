import IndexSnapshot.Version.Parser

/-!
# Distribution files

The names of the files that an index offers for a package: a stem made of fields joined by
hyphens, a point, and one of seven extensions. A source archive is named `name-version`, and both
halves may contain hyphens; a built file is named `name-version-tags`, and its name contains none.
So the version of a source archive is looked for from the right, as everything that follows a
hyphen, and the version of a built file from the left, as one field.
-/

namespace IndexSnapshot

/-- How the fields of a file's stem are laid out. -/
inductive FileKind where
  /-- A source archive: the version runs to the end of the stem. -/
  | source
  /-- A built file: the version is a field between hyphens. -/
  | built
  deriving DecidableEq, Repr

namespace Distribution

/-- The extensions of distribution files. No extension ends in a point and another of them, so
a name has at most one. -/
def extensions : List (String × FileKind) :=
  [("tar.gz", .source), ("tar.bz2", .source), ("tar.xz", .source), ("zip", .source),
    ("whl", .built), ("exe", .built), ("egg", .built)]

/-- The stem of a distribution file's name, and its kind: the stem is not empty and holds no
line end, and the extension counts in either letter case. -/
def stem? (filename : List Char) : Option (List Char × FileKind) :=
  extensions.findSome? fun (extension, kind) ↦ do
    let stem ← Text.stripSuffix? ('.' :: extension.toList) filename
    if stem.isEmpty || stem.any Text.isLineEnd then none else some (stem, kind)

/-- Everything that follows each hyphen, the longest first. -/
def afterHyphens : List Char → List (List Char)
  | [] => []
  | c :: cs => if c = '-' then cs :: afterHyphens cs else afterHyphens cs

/-- The texts that may be the version, in the order in which they are tried. A stem that begins
with a hyphen has no name and so no version. -/
def candidates (kind : FileKind) (stem : List Char) : List (List Char) :=
  if stem.head? = some '-' then [] else
    match kind with
    | .source => (afterHyphens stem).reverse
    | .built => (afterHyphens stem).map (·.takeWhile (· ≠ '-'))

/-- The version that the name of a distribution file tells, or nothing when it tells none. -/
def version? (filename : String) : Option Version := do
  let (stem, kind) ← stem? filename.toList
  (candidates kind stem).findSome? fun candidate ↦ Version.parse? (String.ofList candidate)

end Distribution

end IndexSnapshot
