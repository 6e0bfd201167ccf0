/-!
# Resource locators

The parts of a locator as the URL standard names them. All parts hold the form in which they are
written: percent-encoded, the scheme and domains in small letters, addresses as numbers. The port
is left out when it is the one that the scheme implies.
-/

namespace IndexSnapshot

/-- The host of a locator. -/
inductive Host where
  /-- The name of a domain, in ASCII. -/
  | domain (name : List Char)
  /-- An address of four bytes, as one number. -/
  | ipv4 (address : Nat)
  /-- An address of eight 16-bit pieces. -/
  | ipv6 (pieces : List Nat)
  /-- The host of a locator whose scheme gives hosts no structure. -/
  | unstructured (text : List Char)
  | empty
  deriving DecidableEq, Repr

/-- The path of a locator. -/
inductive Path where
  /-- A hierarchy: each segment is written behind a slash. -/
  | segments (names : List (List Char))
  /-- A text without structure, as in `mailto:someone`. -/
  | flat (text : List Char)
  deriving DecidableEq, Repr

/-- A resource locator. -/
structure Url where
  scheme : List Char
  username : List Char
  password : List Char
  host : Option Host
  port : Option Nat
  path : Path
  query : Option (List Char)
  fragment : Option (List Char)
  deriving DecidableEq, Repr

namespace Url

/-- The schemes whose locators always name a host and a hierarchical path, and the port that each
of them implies. -/
def specialSchemes : List (String × Option Nat) :=
  [("http", some 80), ("https", some 443), ("ftp", some 21), ("ws", some 80), ("wss", some 443),
    ("file", none)]

/-- The scheme is a special one. -/
def isSpecialScheme (scheme : List Char) : Bool :=
  specialSchemes.any fun (name, _) ↦ name.toList = scheme

/-- The port that a scheme implies, when it implies one. -/
def impliedPort? (scheme : List Char) : Option Nat :=
  (specialSchemes.lookup (String.ofList scheme)).join

/-- The scheme is that of local files. -/
def isFileScheme (scheme : List Char) : Bool := scheme = "file".toList

/-- The scheme is that of web pages. -/
def isWebScheme (scheme : List Char) : Bool := scheme = "http".toList || scheme = "https".toList

/-- The locator names a web page. -/
def isWeb (url : Url) : Bool := isWebScheme url.scheme

end Url

end IndexSnapshot
