import IndexSnapshot.Url.Host
import IndexSnapshot.Url.Path

/-!
# Reading a locator

A locator is read alone or against a base, by the rules of the URL standard but for two: what the
double dot at the end of a path leaves, as `Path.push` tells, and which references go with a base
that is a text without structure. The fragment and the query are cut off first, since nothing before
them may hold `#` or `?`; what is left is a scheme or none, and then an authority with a path, a
path alone, or a text without structure.

A reference without a scheme takes from its base all that comes before the first part it has
itself; so does one that repeats the special scheme of its base and has no authority. Against a text
without structure every reference with a fragment is read, and its path is put behind that text.
-/

namespace IndexSnapshot.Url

/-- The text without the controls and spaces at its edges, and without tabs and line breaks. -/
def clean (cs : List Char) : List Char :=
  let isEdge (c : Char) : Bool := c ≤ ' '
  (((cs.dropWhile isEdge).reverse.dropWhile isEdge).reverse).filter fun c ↦
    c ≠ '\t' && c ≠ '\n' && c ≠ '\r'

/-- Characters of a scheme after its first. -/
def isSchemeChar (c : Char) : Bool := c.isAlphanum || c = '+' || c = '-' || c = '.'

/-- The scheme, in small letters, and what follows its colon. -/
def scheme? (cs : List Char) : Option (List Char × List Char) :=
  match cs with
  | first :: _ =>
    if first.isAlpha then
      match cs.dropWhile isSchemeChar with
      | ':' :: rest => some (Text.lower (cs.takeWhile isSchemeChar), rest)
      | _ => none
    else none
  | [] => none

/-- What names the owner of a path: user, host and port. -/
structure Authority where
  username : List Char
  password : List Char
  host : Option Host
  port : Option Nat

/-- No owner. -/
def Authority.none : Authority := ⟨[], [], Option.none, Option.none⟩

/-- An owner that is a host alone. -/
def Authority.ofHost (host : Host) : Authority := ⟨[], [], some host, Option.none⟩

/-- The owner of a locator's path. -/
def authority (url : Url) : Authority := ⟨url.username, url.password, url.host, url.port⟩

/-- The host and the port of an authority apart: the port follows the first colon that is not
inside brackets. -/
def splitPort (cs : List Char) : List Char × Option (List Char) :=
  go false [] cs
where
  /-- The search for the colon, with what comes before it reversed. -/
  go (inside : Bool) (before : List Char) : List Char → List Char × Option (List Char)
    | [] => (before.reverse, none)
    | c :: cs =>
      if c = ':' && !inside then (before.reverse, some cs)
      else if c = '[' then go true (c :: before) cs
      else if c = ']' then go false (c :: before) cs
      else go inside (c :: before) cs

/-- The port that digits denote: none when there are no digits or when it is the one that the
scheme implies; it is at most 65535. -/
def port? (scheme : List Char) (digits : List Char) : Option (Option Nat) :=
  if digits.isEmpty then some none
  else do
    let n ← Number.valueIn? 10 digits
    if 65535 < n then none
    else some (if impliedPort? scheme = some n then none else some n)

/-- The owner that a text denotes. The user information ends at the last `@`, and the password
begins at the first colon before it. -/
def authority? (scheme : List Char) (cs : List Char) : Option Authority := do
  let (userinfo, hostAndPort) := Text.cutAtLast (· = '@') cs
  let (username, password) := Text.cutAt (· = ':') (userinfo.getD [])
  let (hostText, portText) := splitPort hostAndPort
  let special := isSpecialScheme scheme
  let host ←
    if hostText.isEmpty then
      if special || userinfo.isSome || portText.isSome then none else some .empty
    else Host.parse? special hostText
  let port ← port? scheme (portText.getD [])
  let encode := Percent.encode Percent.inUserinfo
  return ⟨encode username, encode (password.getD []), some host, port⟩

/-- The part of a locator before its query: scheme, owner and path. -/
structure Hierarchy where
  scheme : List Char
  authority : Authority
  path : Path

/-- An owner and the path behind it. -/
def owned? (scheme : List Char) (cs : List Char) : Option Hierarchy := do
  let isSlash := Path.isSlash (isSpecialScheme scheme)
  let authority ← authority? scheme (cs.takeWhile fun c ↦ !isSlash c)
  let path :=
    match cs.dropWhile fun c ↦ !isSlash c with
    | _ :: rest => Path.resolve scheme [] rest
    | [] => if isSpecialScheme scheme then Path.resolve scheme [] [] else []
  return ⟨scheme, authority, .segments path⟩

/-- The text without the slashes at its front. -/
def skipSlashes (cs : List Char) : List Char := cs.dropWhile (Path.isSlash true)

/-- The path is a text without structure. -/
def isFlat : Path → Bool
  | .segments _ => false
  | .flat _ => true

/-- The segments of a path; a text without structure has none. -/
def segments : Path → List (List Char)
  | .segments names => names
  | .flat _ => []

/-- The path that a text leads to from the path of a base. In a text without structure all before
the first slash stays, and the rest counts as segments. -/
def resolveOn (scheme : List Char) (base : Path) (path : List Char) : Path :=
  match base with
  | .segments names =>
    .segments (Path.resolve scheme (Path.shorten (isFileScheme scheme) names) path)
  | .flat text =>
    let names := (Text.splitAtMarks (· = '/') text).tail.dropLast
    .flat (text.takeWhile (· ≠ '/') ++
      (Path.resolve scheme names path).flatMap fun name ↦ '/' :: name)

/-- A reference without a scheme of its own, against a base. The second answer tells whether the
query of the base is kept too. -/
def relative? (base : Url) (cs : List Char) : Option (Hierarchy × Bool) :=
  let scheme := base.scheme
  let special := isSpecialScheme scheme
  let onBase (path : Path) : Hierarchy := ⟨scheme, base.authority, path⟩
  match cs with
  | [] => some (onBase base.path, true)
  | c :: rest =>
    if Path.isSlash special c then
      match rest with
      | d :: tail =>
        if Path.isSlash special d then
          (owned? scheme (if special then skipSlashes tail else tail)).map fun h ↦ (h, false)
        else some (onBase (.segments (Path.resolve scheme [] rest)), false)
      | [] => some (onBase (.segments (Path.resolve scheme [] [])), false)
    else some (onBase (resolveOn scheme base.path cs), false)

/-- The host of a file, from the text between two slashes and the path. The host of this machine
is written as no host. -/
def fileHost? (cs : List Char) : Option Host :=
  if cs.isEmpty then some .empty
  else (Host.parse? true cs).map fun host ↦
    if host = .domain "localhost".toList then .empty else host

/-- The locator of a file, from what follows its scheme; the base counts if it is a file. The
second answer tells whether the query of the base is kept too. -/
def file? (base : Option Url) (cs : List Char) : Option (Hierarchy × Bool) :=
  let scheme := "file".toList
  let base := base.filter fun b ↦ isFileScheme b.scheme
  let baseHost := (base.bind fun b ↦ b.host).getD .empty
  let basePath := (base.map fun b ↦ segments b.path).getD []
  let make (host : Host) (path : List (List Char)) : Hierarchy :=
    ⟨scheme, .ofHost host, .segments path⟩
  match cs with
  | [] =>
    match base with
    | some _ => some (make baseHost basePath, true)
    | none => some (make .empty (Path.resolve scheme [] []), false)
  | c :: rest =>
    if Path.isSlash true c then
      match rest with
      | d :: tail =>
        if Path.isSlash true d then
          let name := tail.takeWhile fun c ↦ !Path.isSlash true c
          if Path.isDriveLetter name then
            some (make .empty (Path.resolve scheme [] tail), false)
          else
            (fileHost? name).map fun host ↦
              (make host (Path.resolve scheme [] ((tail.drop name.length).drop 1)), false)
        else some (make baseHost (Path.resolve scheme (drive basePath rest) rest), false)
      | [] => some (make baseHost (Path.resolve scheme (drive basePath []) []), false)
    else
      let parent := if Path.startsWithDrive cs then [] else Path.shorten true basePath
      some (make baseHost (Path.resolve scheme parent cs), false)
where
  /-- The drive that a path from the root keeps from its base, unless it names one. -/
  drive (basePath : List (List Char)) (cs : List Char) : List (List Char) :=
    match basePath with
    | first :: _ =>
      if Path.isNormalDrive first && !Path.startsWithDrive cs then [first] else []
    | [] => []

/-- The part before the query, from a scheme and what follows its colon. -/
def absolute? (base : Option Url) (scheme : List Char) (cs : List Char) :
    Option (Hierarchy × Bool) :=
  let alone := Option.map fun h ↦ (h, false)
  if isFileScheme scheme then file? base cs
  else if isSpecialScheme scheme then
    match base with
    | some b =>
      if b.scheme = scheme && !"//".toList.isPrefixOf cs then relative? b cs
      else alone (owned? scheme (skipSlashes cs))
    | none => alone (owned? scheme (skipSlashes cs))
  else
    match cs with
    | '/' :: '/' :: rest => alone (owned? scheme rest)
    | '/' :: rest => some (⟨scheme, .none, .segments (Path.resolve scheme [] rest)⟩, false)
    | _ => some (⟨scheme, .none, .flat (Percent.encode Percent.isControl cs)⟩, false)

/-- The part before the query. A reference without a scheme needs a base; against a base without
a hierarchy it needs a fragment too. -/
def hierarchy? (base : Option Url) (cs : List Char) (hasFragment : Bool) :
    Option (Hierarchy × Bool) :=
  match scheme? cs with
  | some (scheme, rest) => absolute? base scheme rest
  | none => do
    let b ← base
    if isFlat b.path && !hasFragment then none
    else if isFileScheme b.scheme then file? base cs
    else relative? b cs

/-- The locator that a text denotes, alone or against a base. -/
def parse? (base : Option Url) (text : String) : Option Url := do
  let (cs, fragment) := Text.cutAt (· = '#') (clean text.toList)
  let (cs, query) := Text.cutAt (· = '?') cs
  let (h, keepsQuery) ← hierarchy? base cs fragment.isSome
  let inQuery := if isSpecialScheme h.scheme then Percent.inSpecialQuery else Percent.inQuery
  return {
    scheme := h.scheme
    username := h.authority.username
    password := h.authority.password
    host := h.authority.host
    port := h.authority.port
    path := h.path
    query :=
      match query with
      | some q => some (Percent.encode inQuery q)
      | none => if keepsQuery then base.bind fun b ↦ b.query else none
    fragment := fragment.map (Percent.encode Percent.inFragment) }

end IndexSnapshot.Url
