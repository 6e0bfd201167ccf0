import IndexSnapshot.Proofs.Proxy.Login
import IndexSnapshot.Proofs.Proxy.Rules
import IndexSnapshot.Proofs.Url.Owner
import Mathlib.Data.Bool.AllAny

/-!
# Credentials in proxy addresses

A user and a password go into the address of a proxy in percent encoding, all of it that might have
a meaning there being encoded. Reading the address encodes them once more, but by a set of its own
that has none of the characters which are left, and the login is decoded once. So every user and
every password is given to the proxy as it is (`Proxy.Account.collect_of_text`).
-/

namespace IndexSnapshot

/-! ### Components -/

namespace Percent

/-- The marks that a component of a locator can hold. -/
def componentMarks : List Char := ['-', '_', '.', '!', '~', '*', '\'', '(', ')']

/-- What a component of a locator cannot hold: all but letters, digits and a few marks. -/
def inComponent (c : Char) : Bool := !c.isAlphanum && c ∉ componentMarks

variable {cs : List Char} {c : Char}

/-- A component is written in percent encoding. -/
theorem writes_encode_inComponent (cs : List Char) : Writes cs (encode inComponent cs) := by
  refine writes_encode_of_forall fun c _ hc ↦ ?_
  rintro rfl
  cases hc

/-- What a component is written with has no meaning in user information. -/
theorem inUserinfo_of_mem_component (h : c ∈ encode inComponent cs) : inUserinfo c = false := by
  rcases of_mem_encode h with rfl | halphanum | ⟨-, hkept⟩
  · rfl
  · exact inUserinfo_of_isAlphanum halphanum
  · rw [inComponent, Bool.and_eq_false_iff, Bool.not_eq_false', decide_eq_false_iff_not,
      not_not] at hkept
    rcases hkept with halphanum | hmark
    · exact inUserinfo_of_isAlphanum halphanum
    · have hmarks : ∀ c ∈ componentMarks, inUserinfo c = false :=
        List.all_iff_forall_prop.1 (by decide)
      exact hmarks c hmark

end Percent

/-! ### Hosts -/

/-- A text that does not begin with a digit denotes no number in base ten. -/
theorem Number.valueIn?_cons_of_not_isDigit {c : Char} (h : c.isDigit = false) (cs : List Char) :
    valueIn? 10 (c :: cs) = none := by
  rw [valueIn?, List.foldlM_cons, digitValue?, if_neg (Bool.eq_false_iff.1 h)]
  split
  · simp
  · rfl

theorem Ipv4.number?_cons_of_not_isDigit {c : Char} (h : c.isDigit = false) (cs : List Char) :
    number? (c :: cs) = none := by
  unfold number?
  split
  · rfl
  · rename_i heq
    cases heq
    cases h
  · rename_i heq
    cases heq
    cases h
  · exact Number.valueIn?_cons_of_not_isDigit h cs

namespace Domain

/-- A name of small letters and points. -/
structure IsPlainName (name : List Char) : Prop where
  ne_nil : name ≠ []
  char : ∀ c ∈ name, c = '.' ∨ 'a' ≤ c ∧ c ≤ 'z'

namespace IsPlainName

variable {name : List Char} (h : IsPlainName name)

include h

theorem toNat {c : Char} (hc : c ∈ name) : c.toNat = 46 ∨ 97 ≤ c.toNat ∧ c.toNat ≤ 122 := by
  rcases h.char c hc with rfl | hletter
  · exact .inl rfl
  · exact .inr hletter

theorem isForbiddenInDomain {c : Char} (hc : c ∈ name) : Host.isForbiddenInDomain c = false := by
  rcases h.toNat hc with hpoint | hletter
  · obtain rfl : c = '.' := Char.toNat_inj.1 hpoint
    rfl
  · exact Host.isForbiddenInDomain_of_isAlphanum (Text.isAlphanum_iff.2 (by omega))

/-- A name in small letters is its own ASCII form. -/
theorem toAscii?_eq : toAscii? name = some name := by
  have hascii : isAsciiText name = true := isAsciiText_iff.2 fun c hc ↦
    decide_eq_true (by have := h.toNat hc; omega)
  have hlower : Text.lower name = name :=
    Text.lower_of_forall fun c hc ↦ by have := h.toNat hc; omega
  have hmark : '-' ∉ Text.lower name := by
    rw [hlower]
    exact fun hmem ↦ absurd (h.toNat hmem) (by decide)
  rw [toAscii?_of_not_mem hascii (by decide) hmark, hlower]

/-- No label of letters is a number. -/
theorem isNumeric_eq : Ipv4.isNumeric name = false := by
  have hletter : ∀ label ∈ Ipv4.parts name, ∀ c ∈ label, 97 ≤ c.toNat ∧ c.toNat ≤ 122 := by
    intro label hlabel c hc
    have hpiece : label ∈ Text.splitAtMarks (· = '.') name := by
      unfold Ipv4.parts at hlabel
      split at hlabel
      · rename_i heq
        rwa [heq]
      · split at hlabel
        · exact List.dropLast_subset _ hlabel
        · exact hlabel
    obtain ⟨hmem, hpoint⟩ := Text.of_mem_splitAtMarks hpiece hc
    exact (h.toNat hmem).resolve_left fun hdot ↦
      of_decide_eq_false hpoint (Char.toNat_inj.1 hdot)
  rw [Ipv4.isNumeric]
  split
  · rename_i last hlast
    have hlast := hletter last (List.mem_of_getLast? hlast)
    rcases last with _ | ⟨c, cs⟩
    · rfl
    · have hc := hlast c List.mem_cons_self
      have hdigit : c.isDigit = false := by
        rw [Bool.eq_false_iff, Ne, Text.isDigit_iff]
        omega
      have hnumber := Ipv4.number?_cons_of_not_isDigit hdigit cs
      simp [hdigit, hnumber]
  · rfl

theorem parse?_eq : Host.parse? true name = some (.domain name) :=
  Host.parse?_domain h.ne_nil (fun _ ↦ h.isForbiddenInDomain) h.isNumeric_eq h.toAscii?_eq

end IsPlainName

end Domain

namespace Proxy

/-- Who goes through a proxy, and where it is reached. -/
structure Account where
  user : String
  password : String
  host : String
  port : ℕ
  user_ne : user ≠ ""
  isPlainName_host : Domain.IsPlainName host.toList
  port_le : port ≤ 65535

namespace Account

/-- The user of an account as it is written. -/
def username (a : Account) : List Char := Percent.encode Percent.inComponent a.user.toList

/-- The password of an account as it is written. -/
def secret (a : Account) : List Char := Percent.encode Percent.inComponent a.password.toList

/-- The host and the port. -/
def hostAndPort (a : Account) : List Char := a.host.toList ++ ':' :: Nat.toDigits 10 a.port

/-- The account as it stands in the address of a proxy. -/
def chars (a : Account) : List Char := a.username ++ ':' :: a.secret ++ '@' :: a.hostAndPort

/-- The account in an address, as a text. -/
def text (a : Account) : String := String.ofList a.chars

variable (a : Account)

theorem username_ne_nil : a.username ≠ [] := by
  rw [Ne, username, Percent.encode_eq_nil_iff, String.toList_eq_nil_iff]
  exact a.user_ne

/-- What stands behind the login has no mark of it. -/
theorem isOwn_of_mem_hostAndPort {c : Char} (hc : c ∈ a.hostAndPort) :
    Url.isOwn c = true ∧ c ≠ '@' := by
  have halphanum : c.isAlphanum = true → Url.isOwn c = true ∧ c ≠ '@' := fun h ↦
    ⟨Url.isOwn_of_isAlphanum h, by rintro rfl; cases h⟩
  rcases List.mem_append.1 hc with hc | hc
  · rcases a.isPlainName_host.toNat hc with hpoint | hletter
    · obtain rfl : c = '.' := Char.toNat_inj.1 hpoint
      decide
    · exact halphanum (Text.isAlphanum_iff.2 (by omega))
  · rcases List.mem_cons.1 hc with rfl | hc
    · decide
    · exact halphanum (Number.isAlphanum_of_mem_toDigits (by decide) (by decide) hc)

theorem isOwn_of_mem_chars {c : Char} (hc : c ∈ a.chars) : Url.isOwn c = true := by
  simp only [chars, List.mem_append, List.mem_cons] at hc
  rcases hc with (hc | rfl | hc) | rfl | hc
  · exact Url.isOwn_of_not_inUserinfo (Percent.inUserinfo_of_mem_component hc)
  · rfl
  · exact Url.isOwn_of_not_inUserinfo (Percent.inUserinfo_of_mem_component hc)
  · rfl
  · exact (a.isOwn_of_mem_hostAndPort hc).1

theorem authority?_chars : Url.authority? "http".toList a.chars = some
    ⟨a.username, a.secret, some (.domain a.host.toList),
      if a.port = 80 then none else some a.port⟩ := by
  have hcolon : ∀ c ∈ a.username, decide (c = ':') = false := by
    refine fun c hc ↦ decide_eq_false ?_
    rintro rfl
    cases Percent.inUserinfo_of_mem_component hc
  have hhost : ∀ c ∈ a.host.toList, c ≠ '[' ∧ c ≠ ']' ∧ (c = ':' → false = true) := by
    intro c hc
    have hallowed := a.isPlainName_host.isForbiddenInDomain hc
    refine ⟨?_, ?_, ?_⟩ <;> rintro rfl <;> cases hallowed
  have hat : ∀ c ∈ a.hostAndPort, decide (c = '@') = false := fun c hc ↦
    decide_eq_false (a.isOwn_of_mem_hostAndPort hc).2
  have hlast : Text.cutAtLast (· = '@') a.chars =
      (some (a.username ++ ':' :: a.secret), a.hostAndPort) :=
    Text.cutAtLast_append_mark _ hat rfl
  have hfirst :
      Text.cutAt (· = ':') (a.username ++ ':' :: a.secret) = (a.username, some a.secret) :=
    Text.cutAt_append_mark hcolon rfl
  have hsplit : Url.splitPort a.hostAndPort = (a.host.toList, some (Nat.toDigits 10 a.port)) := by
    rw [Url.splitPort, hostAndPort, Url.splitPort_go_append hhost]
    simp [Url.splitPort.go]
  have hport : Url.port? "http".toList (Nat.toDigits 10 a.port) =
      some (if a.port = 80 then none else some a.port) := by
    have hvalue := Number.valueIn?_toDigits (b := 10) (by decide) (by decide) a.port
    have hdigits : (Nat.toDigits 10 a.port).isEmpty = false := by simp [Nat.toDigits_ne_nil]
    have himplied : Url.impliedPort? "http".toList = some 80 := by decide
    have hle : ¬ 65535 < a.port := Nat.not_lt.2 a.port_le
    rw [Url.port?, hdigits, himplied, hvalue]
    simp [hle, @eq_comm _ 80]
  have hne : a.host.toList.isEmpty = false := by simpa using a.isPlainName_host.ne_nil
  have husername : Percent.encode Percent.inUserinfo a.username = a.username :=
    Percent.encode_of_forall fun _ ↦ Percent.inUserinfo_of_mem_component
  have hsecret : Percent.encode Percent.inUserinfo a.secret = a.secret :=
    Percent.encode_of_forall fun _ ↦ Percent.inUserinfo_of_mem_component
  have hspecial : Url.isSpecialScheme "http".toList = true := by decide
  simp only [Url.authority?, hlast, hfirst, hsplit, hne, Option.getD_some, hport, husername,
    hsecret, hspecial, a.isPlainName_host.parse?_eq]
  rfl

/-- The address of the proxy at which an account is. -/
def locator : Url :=
  Url.page "http".toList
    ⟨a.username, a.secret, some (.domain a.host.toList), if a.port = 80 then none else some a.port⟩
    (Path.resolve "http".toList [] [])

theorem toList_append_text : ("http://" ++ a.text).toList =
    "http".toList ++ ':' :: '/' :: '/' :: a.chars := by
  simp [text]

theorem parse?_text : Url.parse? none ("http://" ++ a.text) = some a.locator := by
  have hne : a.chars ≠ [] := by simp [chars]
  have hweb : Url.isWebScheme "http".toList = true := by decide
  have hread := Url.parse?_owner none hweb hne fun c ↦ a.isOwn_of_mem_chars
  rw [← a.toList_append_text, String.ofList_toList, a.authority?_chars] at hread
  exact hread

/-- No slash is in a login, a host or a port. -/
theorem namesScheme_of_not_mem {cs : List Char} (h : '/' ∉ cs) : namesScheme cs = false := by
  induction cs with
  | nil => rfl
  | cons c cs ih =>
    rw [List.mem_cons, not_or] at h
    have hprefix : "://".toList.isPrefixOf (c :: cs) = false := by
      rw [Bool.eq_false_iff, Ne, List.isPrefixOf_iff_prefix]
      intro hpre
      have hmem : '/' ∈ c :: cs := hpre.subset (by decide)
      exact (List.mem_cons.1 hmem).elim h.1 h.2
    rw [namesScheme, hprefix, ih h.2]
    rfl

theorem namesScheme_append (cs ds : List Char) :
    namesScheme (cs ++ ':' :: '/' :: '/' :: ds) = true := by
  induction cs with
  | nil => rfl
  | cons c cs ih => rw [List.cons_append, namesScheme, ih, Bool.or_true]

/-- The address is understood with its scheme and without it. -/
theorem address?_of_text {value : String} (h : value = a.text ∨ value = "http://" ++ a.text) :
    address? value = some a.locator := by
  have hwhole : (if namesScheme value.toList then value else "http://" ++ value) =
      "http://" ++ a.text := by
    rcases h with rfl | rfl
    · have hslash : '/' ∉ a.text.toList := by
        rw [text, String.toList_ofList]
        exact fun hmem ↦ absurd (a.isOwn_of_mem_chars hmem) (by decide)
      rw [namesScheme_of_not_mem hslash, if_neg Bool.false_ne_true]
    · rw [a.toList_append_text, namesScheme_append, if_pos rfl]
  have hproxy : (a.locator.isWeb && a.locator.hostname ≠ "") = true := by
    have hweb : a.locator.isWeb = true := by
      show Url.isWebScheme "http".toList = true
      decide
    have hhost : a.locator.hostname = a.host := String.ofList_toList
    have hne : a.host ≠ "" := fun heq ↦
      a.isPlainName_host.ne_nil (String.toList_eq_nil_iff.2 heq)
    rw [hweb, hhost, decide_eq_true hne, Bool.and_self]
  rw [address?, hwhole, parse?_text, Option.bind_eq_bind, Option.bind_some, if_pos hproxy]

theorem endpoint_locator : endpoint a.locator =
    .ok ⟨"http", a.host, a.port, some (a.user, a.password)⟩ := by
  have hdecode : ∀ text : String,
      decode (Percent.encode Percent.inComponent text.toList) = .ok text := fun text ↦ by
    rw [decode, Percent.decode?_eq_some_iff.2 (Percent.writes_encode_inComponent text.toList)]
    exact congrArg Except.ok String.ofList_toList
  have hnonempty : a.locator.username.isEmpty = false :=
    List.isEmpty_eq_false_iff.2 a.username_ne_nil
  have hport : a.locator.port.getD 80 = a.port := by
    show (if a.port = 80 then none else some a.port).getD 80 = a.port
    split
    · exact Eq.symm ‹_›
    · rfl
  have huser : decode a.locator.username = .ok a.user := hdecode a.user
  have hpassword : decode a.locator.password = .ok a.password := hdecode a.password
  have hscheme : a.locator.scheme = "http".toList := rfl
  have hhost : a.locator.hostname = a.host := String.ofList_toList
  have hplain : ("http".toList = "https".toList) = False := by decide
  simp only [Proxy.endpoint, hnonempty, huser, hpassword, hscheme, hhost, hplain, if_false, hport]
  rw [if_neg Bool.false_ne_true, String.ofList_toList]
  rfl

/-- **Every user and every password goes to the proxy as it is.** Any of the variables may hold the
address of an account, with its scheme or without it; if the others hold addresses, then the
environment has one rule that comes from this variable, and it leads to the proxy with the login of
the account. -/
theorem collect_of_text {env : Environment} {source : String × Intercept}
    (hsource : source ∈ sources)
    {value : String} (hvalue : value = a.text ∨ value = "http://" ++ a.text)
    (hset : env source.1 = some value)
    (hothers : ∀ other ∈ sources, other.1 ≠ source.1 → HoldsAddress env other.1) :
    ∃ rules rule, collect env = .ok rules ∧
      rules.filter (fun rule ↦ rule.source = source.1) = [rule] ∧ rule.intercept = source.2 ∧
      endpoint rule.url = .ok ⟨"http", a.host, a.port, some (a.user, a.password)⟩ := by
  have haddress : address? value = some a.locator := a.address?_of_text hvalue
  have hne : value ≠ "" := by
    rintro rfl
    have hnothing : address? "" = none := by decide +kernel
    rw [hnothing] at haddress
    cases haddress
  have hget : env.get? source.1 = some value := by
    rw [Environment.get?, hset, Option.filter_some, if_pos (decide_eq_true hne)]
  have hholds : ∀ other ∈ sources, HoldsAddress env other.1 := by
    intro other hother
    by_cases hname : other.1 = source.1
    · intro found hfound
      rw [hname, hget] at hfound
      cases hfound
      rw [haddress]
      rfl
    · exact hothers other hother hname
  have hfilter : (sources.filterMap (ruleOf? env)).filter (fun rule ↦ rule.source = source.1) =
      [⟨source.2, a.locator, source.1⟩] := by
    have hrule : ruleOf? env source = some ⟨source.2, a.locator, source.1⟩ := by
      rw [ruleOf?, hget, Option.bind_some, haddress]
      rfl
    have hunique :
        ∀ source ∈ sources, sources.filter (fun other ↦ other.1 = source.1) = [source] := by
      decide
    rw [filter_source_filterMap, hunique source hsource, List.filterMap_cons_some hrule,
      List.filterMap_nil]
  exact ⟨_, _, collect_eq_ok_iff.2 ⟨hholds, rfl⟩, hfilter, rfl, a.endpoint_locator⟩

/-- An account whose user and password are full of marks, at a proxy with the usual port. -/
def sample : Account where
  user := "us%40er:é/@"
  password := "p w#?[]\\\x00"
  host := "proxy.example"
  port := 80
  user_ne := by decide
  isPlainName_host := ⟨by decide, List.all_iff_forall_prop.1 (by decide)⟩
  port_le := by decide

theorem collect_of_text_sample :
    ∃ rules rule,
      collect (.ofList [("HTTPS_PROXY", "http://" ++ sample.text), ("all_proxy", "")]) = .ok rules ∧
        rules.filter (fun rule ↦ rule.source = "HTTPS_PROXY") = [rule] ∧ rule.intercept = .https ∧
        endpoint rule.url =
          .ok ⟨"http", "proxy.example", 80, some ("us%40er:é/@", "p w#?[]\\\x00")⟩ := by
  have hsource : ("HTTPS_PROXY", Intercept.https) ∈ sources := by decide
  have hothers : ∀ other ∈ sources, other.1 ≠ "HTTPS_PROXY" →
      Environment.get? (.ofList [("HTTPS_PROXY", "http://" ++ sample.text), ("all_proxy", "")])
        other.1 = none := by
    decide +kernel
  refine sample.collect_of_text hsource (.inr rfl) rfl ?_
  intro other hother hname value hvalue
  rw [hothers other hother hname] at hvalue
  cases hvalue

end Account

end Proxy

end IndexSnapshot
