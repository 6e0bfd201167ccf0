import IndexSnapshot.Url.Address
import IndexSnapshot.Url.Basic
import IndexSnapshot.Url.Domain
import IndexSnapshot.Url.Percent

/-!
# Hosts

A host in brackets is an address of 16-bit pieces. Under a special scheme any other host is a
domain name, percent-encoded or not, brought into its ASCII form; a name that ends in a number is
an address of four bytes. Under other schemes a host is kept as it is.
-/

namespace IndexSnapshot.Host

/-- Characters that no host may hold. -/
def isForbidden (c : Char) : Bool :=
  c ∈ ['\x00', '\t', '\n', '\r', ' ', '#', '/', ':', '<', '>', '?', '@', '[', '\\', ']', '^', '|']

/-- Characters that no domain name may hold. -/
def isForbiddenInDomain (c : Char) : Bool :=
  isForbidden c || c ≤ '\x1f' || c = '%' || c = '\x7f'

/-- The host that a domain name denotes. -/
def ofDomain? (text : List Char) : Option Host := do
  let decoded ← Percent.ofUtf8? (Percent.decodeBytes text)
  let name ← Domain.toAscii? decoded
  if name.isEmpty || name.any isForbiddenInDomain then none
  else if Ipv4.isNumeric name then (Ipv4.parse? name).map .ipv4
  else some (.domain name)

/-- The host that a text which is not empty denotes. -/
def parse? (special : Bool) (text : List Char) : Option Host :=
  match text with
  | '[' :: rest =>
    if rest.getLast? = some ']' then (Ipv6.parse? rest.dropLast).map .ipv6 else none
  | _ =>
    if special then ofDomain? text
    else if text.any isForbidden then none
    else some (.unstructured (Percent.encode Percent.isControl text))

/-- The host in its written form. -/
def text : Host → List Char
  | domain name => name
  | ipv4 address => Ipv4.text address
  | ipv6 pieces => '[' :: Ipv6.text pieces ++ [']']
  | unstructured text => text
  | empty => []

end IndexSnapshot.Host
