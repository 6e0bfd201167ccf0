import IndexSnapshot.Url.Parser

/-!
# Writing a locator

The written form of a locator, which reads back as the locator, and the form without query and
fragment under which a file is known whatever its checksum is.
-/

namespace IndexSnapshot.Url

/-- The user information with its `@`; nothing when there is neither user nor password. -/
def userinfoChars (url : Url) : List Char :=
  if url.username.isEmpty && url.password.isEmpty then []
  else
    url.username ++ (if url.password.isEmpty then [] else ':' :: url.password) ++ ['@']

/-- The port with its colon. -/
def portChars (url : Url) : List Char :=
  match url.port with
  | some n => ':' :: Nat.toDigits 10 n
  | none => []

/-- The path. Behind no host a path that begins with two slashes gets a dot in front, since it
would be taken for a host. -/
def pathChars (url : Url) : List Char :=
  match url.path with
  | .flat text => text
  | .segments names =>
    let path := names.flatMap fun name ↦ '/' :: name
    match url.host, names with
    | none, [] :: _ :: _ => '/' :: '.' :: path
    | _, _ => path

/-- The written form, as characters. -/
def chars (url : Url) : List Char :=
  let owner :=
    match url.host with
    | some host => '/' :: '/' :: url.userinfoChars ++ host.text ++ url.portChars
    | none => []
  url.scheme ++ ':' :: owner ++ url.pathChars ++
    (url.query.elim [] fun q ↦ '?' :: q) ++ (url.fragment.elim [] fun f ↦ '#' :: f)

/-- The written form. -/
def href (url : Url) : String := String.ofList url.chars

/-- The path without the spaces at the end of a text without structure. -/
def trimPath : Path → Path
  | .flat text => .flat (text.reverse.dropWhile (· = ' ')).reverse
  | path => path

/-- The locator without its query and its fragment. -/
def withoutSuffix (url : Url) : Url :=
  { url with path := trimPath url.path, query := none, fragment := none }

/-- The name of the host, in its written form. -/
def hostname (url : Url) : String := String.ofList (url.host.elim [] Host.text)

/-- The written form, without query and fragment, of a text that is a locator by itself. -/
def cleaned? (text : String) : Option String :=
  (parse? none text).map fun url ↦ url.withoutSuffix.href

end IndexSnapshot.Url
