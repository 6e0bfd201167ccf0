import IndexSnapshot.Client
import IndexSnapshot.Proofs.Config.Accepted
import IndexSnapshot.Proofs.Url.Coding
import IndexSnapshot.Proofs.Url.Reading

/-!
# Logins of proxies

The addresses of proxies are checked when the environment is read, but the user and the password in
them are decoded only when a request is made. A request fails just when the login of its proxy is
not written in percent encoding, and where no variable holds a percent sign, no request fails for
its proxy (`Proxy.outgoing_of_collect`).
-/

namespace IndexSnapshot

/-- The user and the password of a locator are written in percent encoding; without a user nothing
is asked of the password. -/
def Url.HasReadableLogin (url : Url) : Prop :=
  url.username = [] ∨
    (∃ user, Percent.Writes user url.username) ∧ ∃ password, Percent.Writes password url.password

namespace Url

variable {text : String} {url : Url}

/-! ### Logins as they are written -/

theorem sublist_of_cutAt_fst (isMark : Char → Bool) (cs : List Char) :
    (Text.cutAt isMark cs).1.Sublist cs := by
  rw [Text.cutAt_fst]
  exact List.takeWhile_sublist _

theorem sublist_of_cutAt_snd (isMark : Char → Bool) (cs : List Char) :
    ((Text.cutAt isMark cs).2.getD []).Sublist cs := by
  unfold Text.cutAt
  split
  · exact List.nil_sublist cs
  · rename_i mark rest hdrop
    have htail : rest.Sublist (mark :: rest) := List.sublist_cons_self mark rest
    exact htail.trans (hdrop ▸ List.dropWhile_sublist _)

theorem front_sublist (text : String) : (front text).Sublist text.toList :=
  (sublist_of_cutAt_fst _ _).trans ((sublist_of_cutAt_fst _ _).trans (clean_sublist _))

theorem exists_sublist_of_owned? {scheme cs : List Char} {hier : Hierarchy}
    (h : owned? scheme cs = some hier) :
    ∃ owner, owner.Sublist cs ∧ authority? scheme owner = some hier.authority := by
  obtain ⟨a, ha, hpath⟩ := Option.bind_eq_some_iff.1 h
  cases hpath
  exact ⟨_, List.takeWhile_sublist _, ha⟩

/-- The owner of a page is found in the text that is read. -/
theorem exists_owner_of_parse? (h : parse? none text = some url) (hweb : url.isWeb = true) :
    ∃ owner, owner.Sublist text.toList ∧ authority? url.scheme owner = some url.authority := by
  obtain ⟨rest, hrest, hier, keepsQuery, hhier, hauthority, -⟩ := exists_scheme_of_parse? h
  simp only [absolute?, isFileScheme_of_isWebScheme hweb, isSpecialScheme_of_isWebScheme hweb,
    if_true] at hhier
  obtain ⟨found, hfound, hsame⟩ := Option.map_eq_some_iff.1 hhier
  cases hsame
  obtain ⟨owner, howner, ha⟩ := exists_sublist_of_owned? hfound
  obtain ⟨written, -, hfront, -⟩ := eq_append_of_scheme? hrest
  have hbehind : rest.Sublist (front text) := by
    rw [hfront]
    exact (List.sublist_cons_self ':' rest).trans (List.sublist_append_right written _)
  have hslashes : (skipSlashes rest).Sublist text.toList :=
    (List.dropWhile_sublist _).trans (hbehind.trans (front_sublist text))
  exact ⟨owner, howner.trans hslashes, hauthority ▸ ha⟩

/-- User and password are what is written, in percent encoding. -/
theorem exists_login_of_authority? {scheme owner : List Char} {a : Authority}
    (hspecial : isSpecialScheme scheme = true) (h : authority? scheme owner = some a) :
    ∃ user password : List Char,
      user.Sublist owner ∧ password.Sublist owner ∧
        a.username = Percent.encode Percent.inUserinfo user ∧
        a.password = Percent.encode Percent.inUserinfo password := by
  have huserinfo : ((Text.cutAtLast (· = '@') owner).1.getD []).Sublist owner := by
    have hrest := (sublist_of_cutAt_snd (· = '@') owner.reverse).reverse
    rw [List.reverse_reverse] at hrest
    unfold Text.cutAtLast
    dsimp only
    cases hcut : (Text.cutAt (· = '@') owner.reverse).2 with
    | none => exact List.nil_sublist owner
    | some before =>
      rw [hcut] at hrest
      exact hrest
  simp only [authority?, hspecial, Bool.true_or, if_true] at h
  split at h
  · cases h
  · obtain ⟨host, -, h⟩ := Option.bind_eq_some_iff.1 h
    obtain ⟨port, -, h⟩ := Option.bind_eq_some_iff.1 h
    cases h
    exact ⟨_, _, (sublist_of_cutAt_fst _ _).trans huserinfo,
      (sublist_of_cutAt_snd _ _).trans huserinfo, rfl, rfl⟩

/-- Without a percent sign in the text, the login is encoded as it should be. -/
theorem hasReadableLogin_of_notMem (h : parse? none text = some url) (hweb : url.isWeb = true)
    (hpercent : '%' ∉ text.toList) : url.HasReadableLogin := by
  obtain ⟨owner, howner, ha⟩ := exists_owner_of_parse? h hweb
  obtain ⟨user, password, huser, hpassword, huser', hpassword'⟩ :=
    exists_login_of_authority? (isSpecialScheme_of_isWebScheme hweb) ha
  refine .inr ⟨⟨user, ?_⟩, password, ?_⟩
  · rw [show url.username = _ from huser']
    exact Percent.writes_encode fun hmem ↦ hpercent ((huser.trans howner).mem hmem)
  · rw [show url.password = _ from hpassword']
    exact Percent.writes_encode fun hmem ↦ hpercent ((hpassword.trans howner).mem hmem)

end Url

namespace Proxy

variable {env : Environment} {rules : List Rule} {rule : Rule}

/-! ### Rules of an environment -/

theorem of_rule_eq_ok {name : String} {intercept : Intercept} {found : Option Rule}
    (h : Proxy.rule env name intercept = .ok found) : ∀ rule ∈ found,
      ∃ value, env.get? rule.source = some value ∧ address? value = some rule.url := by
  intro rule hrule
  unfold Proxy.rule at h
  split at h
  · cases h
    cases hrule
  · rename_i value hvalue
    split at h
    · rename_i url hurl
      cases h
      cases hrule
      exact ⟨value, hvalue, hurl⟩
    · cases h

theorem of_mem_of_mapM {names : List (String × Intercept)} {found : List (Option Rule)}
    (h : names.mapM (fun (name, intercept) ↦ Proxy.rule env name intercept) = .ok found)
    (hrule : some rule ∈ found) :
    ∃ value, env.get? rule.source = some value ∧ address? value = some rule.url := by
  induction names generalizing found with
  | nil =>
    cases h
    cases hrule
  | cons name names ih =>
    rw [List.mapM_cons] at h
    obtain ⟨first, hfirst, h⟩ := Config.bind_eq_ok.1 h
    obtain ⟨others, hothers, h⟩ := Config.bind_eq_ok.1 h
    cases h
    rcases List.mem_cons.1 hrule with rfl | hrule
    · exact of_rule_eq_ok hfirst rule rfl
    · exact ih hothers hrule

/-- A rule comes from a variable that holds the address of a proxy. -/
theorem address?_of_mem_collect (h : collect env = .ok rules) (hrule : rule ∈ rules) :
    ∃ value, env.get? rule.source = some value ∧ address? value = some rule.url := by
  rw [collect] at h
  obtain ⟨found, hfound, h⟩ := Config.bind_eq_ok.1 h
  cases h
  obtain ⟨_, hmem, rfl⟩ := List.mem_filterMap.1 hrule
  exact of_mem_of_mapM hfound hmem

/-- The address of a proxy is that of a web page, whose login needs no percent sign. -/
theorem hasReadableLogin_of_address? {value : String} {url : Url} (h : address? value = some url)
    (hpercent : '%' ∉ value.toList) : url.HasReadableLogin := by
  rw [address?] at h
  obtain ⟨found, hfound, h⟩ := Option.bind_eq_some_iff.1 h
  split at h
  · rename_i hproxy
    cases h
    have hweb : url.isWeb = true := (Bool.and_eq_true_iff.1 hproxy).1
    split at hfound
    · exact Url.hasReadableLogin_of_notMem hfound hweb hpercent
    · refine Url.hasReadableLogin_of_notMem hfound hweb ?_
      rw [String.toList_append, List.mem_append, not_or]
      exact ⟨by decide, hpercent⟩
  · cases h

/-! ### Endpoints -/

theorem decode_eq_ok_iff {cs : List Char} :
    (∃ s, decode cs = .ok s) ↔ ∃ text, Percent.Writes text cs := by
  simp only [← Percent.decode?_eq_some_iff, decode]
  cases Percent.decode? cs <;> simp

/-- **A proxy can be reached exactly if its login can be read.** -/
theorem endpoint_eq_ok_iff (url : Url) :
    (∃ e, endpoint url = .ok e) ↔ url.HasReadableLogin := by
  rw [Url.HasReadableLogin, ← decode_eq_ok_iff, ← decode_eq_ok_iff, endpoint]
  cases husername : url.username with
  | nil => exact ⟨fun _ ↦ .inl rfl, fun _ ↦ ⟨_, rfl⟩⟩
  | cons c cs =>
    rw [or_iff_right (List.cons_ne_nil c cs)]
    cases decode (c :: cs) with
    | error e => simp [bind, Except.bind]
    | ok user =>
      cases decode url.password with
      | error e => simp [bind, Except.bind]
      | ok password => simp [bind, Except.bind, pure, Except.pure]

theorem endpoint_of_not_hasReadableLogin {url : Url} (h : ¬ url.HasReadableLogin) :
    endpoint url = .error .malformed := by
  rw [← endpoint_eq_ok_iff] at h
  cases hendpoint : endpoint url with
  | error e =>
    cases e
    rfl
  | ok e => exact absurd ⟨e, hendpoint⟩ h

end Proxy

/-! ### Requests -/

/-- The login of the proxy that a request goes through can be read, if it goes through one. -/
def Client.Reaches (client : Client) (url : String) (base : Option String) : Prop :=
  ∀ target ∈ Client.target? url base, ∀ rule ∈ Proxy.select target client.rules,
    rule.url.HasReadableLogin

namespace Client

variable {client : Client} {url : String} {base : Option String}

theorem proxyFor_eq_ok (h : client.Reaches url base) :
    ∃ proxy, client.proxyFor url base = .ok proxy := by
  rw [proxyFor]
  cases hselect : (target? url base).bind fun target ↦ Proxy.select target client.rules with
  | none => exact ⟨none, rfl⟩
  | some rule =>
    obtain ⟨target, htarget, hrule⟩ := Option.bind_eq_some_iff.1 hselect
    obtain ⟨e, he⟩ := (Proxy.endpoint_eq_ok_iff rule.url).2 (h target htarget rule hrule)
    refine ⟨some e, ?_⟩
    dsimp only
    rw [he]
    rfl

theorem proxyFor_eq_error (h : ¬ client.Reaches url base) :
    client.proxyFor url base = .error .malformed := by
  obtain ⟨target, htarget, rule, hrule, hlogin⟩ : ∃ target, target? url base = some target ∧
      ∃ rule, Proxy.select target client.rules = some rule ∧ ¬ rule.url.HasReadableLogin := by
    simpa [Reaches] using h
  rw [proxyFor, htarget, Option.bind_some, hrule]
  dsimp only
  rw [Proxy.endpoint_of_not_hasReadableLogin hlogin]
  rfl

theorem outgoing_eq_ok (h : client.Reaches url base) :
    ∃ request, client.outgoing url base = .ok request := by
  obtain ⟨proxy, hproxy⟩ := proxyFor_eq_ok h
  exact ⟨⟨url, proxy, client.timeout, client.agent⟩, by rw [outgoing, hproxy]; rfl⟩

theorem outgoing_eq_error (h : ¬ client.Reaches url base) :
    client.outgoing url base = .error .malformed := by
  rw [outgoing, proxyFor_eq_error h]
  rfl

end Client

/-- **Requests fail only for logins that cannot be read, and for these they fail.** The rules of an
environment come from the addresses that its variables hold. Whether a proxy can be reached, and
whether a request goes out, depends on the login in the address alone. An address without a percent
sign has a login that can be read, but no other login is looked at before a request needs it. -/
theorem Proxy.outgoing_of_collect {env : Environment} {rules : List Rule}
    (h : collect env = .ok rules) (client : Client) (hclient : client.rules = rules) :
    (∀ rule ∈ rules, ∃ value, env.get? rule.source = some value ∧
      address? value = some rule.url ∧
        ((∃ e, endpoint rule.url = .ok e) ↔ rule.url.HasReadableLogin) ∧
          ('%' ∉ value.toList → rule.url.HasReadableLogin)) ∧
    (∀ url base, (∃ request, client.outgoing url base = .ok request) ↔
      client.Reaches url base) ∧
    (∀ fetch url, (client.Reaches url none → client.fetch fetch url = fetch url) ∧
      (¬ client.Reaches url none →
        client.fetch fetch url = .error (.error LoginError.malformed.message))) ∧
    ((∀ name value, env.get? name = some value → '%' ∉ value.toList) →
      ∀ url base, client.Reaches url base) := by
  have hrules : ∀ rule ∈ rules, ∃ value, env.get? rule.source = some value ∧
      address? value = some rule.url := fun rule hrule ↦ address?_of_mem_collect h hrule
  refine ⟨fun rule hrule ↦ ?_, fun url base ↦ ⟨fun ⟨request, hrequest⟩ ↦ ?_, ?_⟩,
    fun fetch url ↦ ⟨fun hreaches ↦ ?_, fun hreaches ↦ ?_⟩,
    fun hpercent url base target _ rule hrule ↦ ?_⟩
  · obtain ⟨value, hvalue, haddress⟩ := hrules rule hrule
    exact ⟨value, hvalue, haddress, endpoint_eq_ok_iff rule.url,
      hasReadableLogin_of_address? haddress⟩
  · by_contra hreaches
    rw [Client.outgoing_eq_error hreaches] at hrequest
    cases hrequest
  · exact Client.outgoing_eq_ok
  · obtain ⟨request, hrequest⟩ := Client.outgoing_eq_ok hreaches
    rw [Client.fetch, hrequest]
  · rw [Client.fetch, Client.outgoing_eq_error hreaches]
  · obtain ⟨value, hvalue, haddress⟩ :=
      hrules rule (hclient ▸ List.mem_of_find?_eq_some hrule)
    exact hasReadableLogin_of_address? haddress (hpercent _ value hvalue)

/-- A rule for plain requests, with a login as it stands in the address. -/
def Proxy.plainRule (username : List Char) : Proxy.Rule where
  intercept := .http
  url := {
    scheme := ['h', 't', 't', 'p']
    username
    password := ['p', 'w']
    host := some (.domain ['p', 'r', 'o', 'x', 'y', '.', 'e', 'x', 'a', 'm', 'p', 'l', 'e'])
    port := some 8080
    path := .segments [[]]
    query := none
    fragment := none }
  source := "http_proxy"

theorem Proxy.outgoing_of_collect_encoded :
    collect (.ofList [("http_proxy", "http://us%40er:pw@proxy.example:8080")]) =
        .ok [plainRule ['u', 's', '%', '4', '0', 'e', 'r']] ∧
      ∀ url base, ∃ request,
        Client.outgoing { rules := [plainRule ['u', 's', '%', '4', '0', 'e', 'r']] } url base =
          .ok request := by
  have hcollect : collect (.ofList [("http_proxy", "http://us%40er:pw@proxy.example:8080")]) =
      .ok [plainRule ['u', 's', '%', '4', '0', 'e', 'r']] := by decide +kernel
  refine ⟨hcollect, fun url base ↦ ((outgoing_of_collect hcollect _ rfl).2.1 url base).2 ?_⟩
  intro target _ rule hrule
  obtain rfl := List.mem_singleton.1 (List.mem_of_find?_eq_some hrule)
  refine .inr ⟨⟨['u', 's', '@', 'e', 'r'], ?_⟩, ['p', 'w'], ?_⟩
  · exact Percent.decode?_eq_some_iff.1 (by decide +kernel)
  · exact Percent.decode?_eq_some_iff.1 (by decide +kernel)

/-- An address is accepted at the start, and no request for a plain address can be made. -/
theorem Proxy.outgoing_of_collect_malformed :
    collect (.ofList [("http_proxy", "http://us%er:pw@proxy.example:8080")]) =
        .ok [plainRule ['u', 's', '%', 'e', 'r']] ∧
      endpoint (plainRule ['u', 's', '%', 'e', 'r']).url = .error .malformed ∧
      Client.outgoing { rules := [plainRule ['u', 's', '%', 'e', 'r']] }
        "http://pypi.org/simple/" none = .error .malformed := by
  decide +kernel

end IndexSnapshot
