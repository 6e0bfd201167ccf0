import IndexSnapshot.Proxy
import IndexSnapshot.Text.Header
import IndexSnapshot.World

/-!
# The client that asks for pages

All requests of a run are made by one client: the time to wait and the name of the program are the
same for each, and the proxy is chosen for each by its address.
-/

namespace IndexSnapshot

/-- What all requests have in common. -/
structure Client where
  timeout : Binary64 := 30000
  userAgent : String := "pypi-snapshot/1.0"
  rules : List Proxy.Rule := []

namespace Client

/-- A request as it goes out. -/
structure Outgoing where
  url : String
  proxy : Option Proxy.Endpoint
  timeout : Binary64
  userAgent : String
  deriving DecidableEq, Repr

/-- The kind of body that every request asks for. -/
def responseType : String := "text"

/-- The type of content that every request asks for. -/
def accept : String := "text/html"

/-- The address that a request goes to, when it can be made out: an address relative to a base,
when one is given. -/
def target? (url : String) (base : Option String) : Option Url :=
  if url = "" then none
  else
    match base with
    | none => Url.parse? none url
    | some base => do Url.parse? (← Url.parse? none base) url

/-- The proxy that a request goes through, if any. A request whose address cannot be made out goes
through none. -/
def proxyFor (client : Client) (url : String) (base : Option String) :
    Except Proxy.LoginError (Option Proxy.Endpoint) :=
  match (target? url base).bind fun target ↦ Proxy.select target client.rules with
  | none => .ok none
  | some rule => (Proxy.endpoint rule.url).map some

/-- The name of the program as requests give it. -/
def agent (client : Client) : String :=
  String.ofList (Text.headerValue client.userAgent.toList)

/-- The request for a page, unless the login of its proxy is at fault. -/
def outgoing (client : Client) (url : String) (base : Option String) :
    Except Proxy.LoginError Outgoing := do
  let proxy ← client.proxyFor url base
  return ⟨url, proxy, client.timeout, client.agent⟩

/-- What a request through the client is answered: what the address answers, unless the login of
its proxy is at fault. -/
def fetch (client : Client) (fetch : String → Response) (url : String) : Response :=
  match client.outgoing url none with
  | .ok _ => fetch url
  | .error e => .error (.error e.message)

/-- The requests that really go out, of those for the given addresses. -/
def sent (client : Client) (urls : List String) : List Outgoing :=
  urls.filterMap fun url ↦
    match client.outgoing url none with
    | .ok request => some request
    | .error _ => none

end Client

end IndexSnapshot
