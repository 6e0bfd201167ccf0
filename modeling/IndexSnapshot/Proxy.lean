import IndexSnapshot.Environment
import IndexSnapshot.Url.Printer

/-!
# Proxies

Requests may go through a proxy that the environment names. Six variables are looked at in a fixed
order; each that is set must hold the address of a proxy, and gives a rule for the requests of one
scheme or of all. A request goes by the first rule that is for its scheme.
-/

namespace IndexSnapshot.Proxy

/-- The requests that a rule is for. -/
inductive Intercept where
  | http
  | https
  | all
  deriving DecidableEq, Repr

/-- The name of what a rule is for. -/
def Intercept.name : Intercept → String
  | http => "http"
  | https => "https"
  | all => "all"

/-- A rule: requests of a kind go through a proxy. -/
structure Rule where
  intercept : Intercept
  url : Url
  /-- The variable that the rule comes from. -/
  source : String
  deriving DecidableEq, Repr

/-- The variables that name proxies, the most important one first. -/
def sources : List (String × Intercept) :=
  [("http_proxy", .http), ("HTTP_PROXY", .http), ("https_proxy", .https),
    ("HTTPS_PROXY", .https), ("all_proxy", .all), ("ALL_PROXY", .all)]

/-- Why the environment gives no rules. -/
inductive Error where
  /-- A variable does not hold the address of a proxy. -/
  | badAddress (name value : String)
  deriving DecidableEq, Repr

/-- The complaint in words. -/
def Error.message : Error → String
  | badAddress name value => "프록시 설정이 올바르지 않습니다: " ++ name ++ "=" ++ value

/-- The text has a scheme with two slashes in it. -/
def namesScheme : List Char → Bool
  | [] => false
  | c :: cs => "://".toList.isPrefixOf (c :: cs) || namesScheme cs

/-- The address of a proxy: that of a web page, the scheme of plain requests being understood when
there is none. -/
def address? (value : String) : Option Url := do
  let url ← Url.parse? none (if namesScheme value.toList then value else "http://" ++ value)
  if url.isWeb && url.hostname ≠ "" then some url else none

/-- The rule that a variable gives, when it is set. -/
def rule (env : Environment) (name : String) (intercept : Intercept) :
    Except Error (Option Rule) :=
  match env.get? name with
  | none => .ok none
  | some value =>
    match address? value with
    | some url => .ok (some ⟨intercept, url, name⟩)
    | none => .error (.badAddress name value)

/-- The rules of an environment, the most important one first. -/
def collect (env : Environment) : Except Error (List Rule) := do
  let rules ← sources.mapM fun (name, intercept) ↦ rule env name intercept
  return rules.filterMap id

/-- A rule is for the requests of a scheme. -/
def Rule.isFor (rule : Rule) (scheme : List Char) : Bool :=
  match rule.intercept with
  | .all => true
  | .http => scheme = "http".toList
  | .https => scheme = "https".toList

/-- The rule that a request to an address goes by. -/
def select (target : Url) (rules : List Rule) : Option Rule :=
  rules.find? fun rule ↦ rule.isFor target.scheme

/-- How to reach a proxy. -/
structure Endpoint where
  protocol : String
  host : String
  port : Nat
  /-- The user and the password, when there is a user. -/
  login : Option (String × String)
  deriving DecidableEq, Repr

/-- Why a proxy cannot be reached. -/
inductive LoginError where
  /-- The user or the password is not properly percent-encoded. -/
  | malformed
  deriving DecidableEq, Repr

/-- The complaint in words. -/
def LoginError.message : LoginError → String
  | malformed => "URI malformed"

/-- The text behind percent encoding. -/
def decode (cs : List Char) : Except LoginError String :=
  match Percent.decode? cs with
  | some cs => .ok (String.ofList cs)
  | none => .error .malformed

/-- How to reach the proxy at an address. Without a port it is reached at the usual one of its
scheme; without a user there is no login, whatever the password. -/
def endpoint (url : Url) : Except LoginError Endpoint := do
  let usual := if url.scheme = "https".toList then 443 else 80
  let login ←
    if url.username.isEmpty then pure none
    else do
      let user ← decode url.username
      let password ← decode url.password
      pure (some (user, password))
  return {
    protocol := String.ofList url.scheme
    host := url.hostname
    port := url.port.getD usual
    login }

end IndexSnapshot.Proxy
