import IndexSnapshot.Proofs.Proxy.Rules
import Mathlib.Data.List.Basic

/-!
# Which proxy a request goes through

For each scheme some of the variables count, in an order of their own (`namesFor`), and a request
goes through the proxy of the first of them that is set. What that is depends on no more than the
variables up to this one: an environment that has the same values there leads the request through
the same proxy, whatever else it holds (`proxyFor_of_collect`).
-/

namespace IndexSnapshot.Proxy

variable {env env' : Environment} {names : List String} {scheme : List Char}

/-- The variables that count for the requests of a scheme, the most important one first. -/
def namesFor (scheme : List Char) : List String :=
  if scheme = "http".toList then ["http_proxy", "HTTP_PROXY", "all_proxy", "ALL_PROXY"]
  else if scheme = "https".toList then ["https_proxy", "HTTPS_PROXY", "all_proxy", "ALL_PROXY"]
  else ["all_proxy", "ALL_PROXY"]

/-- The value of the first variable that is set. -/
def firstSet? (env : Environment) (names : List String) : Option String := names.findSome? env.get?

/-- The variables up to the first one that is set, and all of them if none is. -/
def upToFirst (env : Environment) : List String → List String
  | [] => []
  | name :: names => name :: if (env.get? name).isSome then [] else upToFirst env names

/-! ### Requests of a scheme -/

/-- Rules for requests of a kind are for the requests of a scheme. -/
def Intercept.isFor (scheme : List Char) : Intercept → Bool
  | .all => true
  | .http => scheme = "http".toList
  | .https => scheme = "https".toList

theorem Rule.isFor_eq (rule : Rule) (scheme : List Char) :
    rule.isFor scheme = rule.intercept.isFor scheme := by
  obtain ⟨intercept, url, source⟩ := rule
  cases intercept <;> rfl

/-- The variables that count for a scheme are those whose rules are for it. -/
theorem map_fst_filter_sources (scheme : List Char) :
    (sources.filter fun source ↦ source.2.isFor scheme).map Prod.fst = namesFor scheme := by
  by_cases hplain : scheme = "http".toList
  · subst hplain
    rfl
  by_cases hsecure : scheme = "https".toList
  · subst hsecure
    rfl
  have hhttp : Intercept.isFor scheme .http = false := decide_eq_false hplain
  have hhttps : Intercept.isFor scheme .https = false := decide_eq_false hsecure
  have hall : Intercept.isFor scheme .all = true := rfl
  rw [namesFor, if_neg hplain, if_neg hsecure]
  simp [sources, hhttp, hhttps, hall]

/-- The first rule for a scheme is that of the first variable that is set, of those whose rules are
for the scheme. -/
theorem map_url_find?_filterMap {sources : List (String × Intercept)}
    (h : ∀ source ∈ sources, HoldsAddress env source.1) (scheme : List Char) :
    ((sources.filterMap (ruleOf? env)).find? fun rule ↦ rule.isFor scheme).map Rule.url =
      (firstSet? env ((sources.filter fun source ↦ source.2.isFor scheme).map Prod.fst)).bind
        address? := by
  induction sources with
  | nil => rfl
  | cons source sources ih =>
    obtain ⟨hholds, hsources⟩ := List.forall_mem_cons.1 h
    have ih := ih hsources
    rw [firstSet?] at ih ⊢
    cases hvalue : env.get? source.1 with
    | none =>
      have hrule : ruleOf? env source = none := by rw [ruleOf?, hvalue]; rfl
      rw [List.filterMap_cons_none hrule, ih, List.filter_cons]
      split
      · rw [List.map_cons, List.findSome?_cons, hvalue]
      · rfl
    | some value =>
      obtain ⟨url, hurl⟩ := Option.isSome_iff_exists.1 (hholds value hvalue)
      have hrule : ruleOf? env source = some ⟨source.2, url, source.1⟩ := by
        rw [ruleOf?, hvalue, Option.bind_some, hurl]
        rfl
      rw [List.filterMap_cons_some hrule, List.find?_cons, List.filter_cons, Rule.isFor_eq]
      dsimp only
      cases source.2.isFor scheme with
      | true =>
        rw [if_pos rfl, List.map_cons, List.findSome?_cons, hvalue]
        dsimp only
        rw [Option.bind_some, hurl]
        rfl
      | false =>
        rw [if_neg Bool.false_ne_true]
        exact ih

/-- **A request goes by the first variable that is set**, of those that count for its scheme. -/
theorem map_url_select {rules : List Rule} (h : collect env = .ok rules) (target : Url) :
    (select target rules).map Rule.url =
      (firstSet? env (namesFor target.scheme)).bind address? := by
  obtain ⟨hholds, rfl⟩ := collect_eq_ok_iff.1 h
  rw [select, map_url_find?_filterMap hholds, map_fst_filter_sources]

theorem exists_address?_of_firstSet? {rules : List Rule} (h : collect env = .ok rules)
    {value : String} (hvalue : firstSet? env (namesFor scheme) = some value) :
    ∃ proxy, address? value = some proxy := by
  obtain ⟨name, hname, hset⟩ := List.exists_of_findSome?_eq_some hvalue
  rw [← map_fst_filter_sources] at hname
  obtain ⟨source, hsource, rfl⟩ := List.mem_map.1 hname
  exact Option.isSome_iff_exists.1
    ((collect_eq_ok_iff.1 h).1 source (List.mem_filter.1 hsource).1 value hset)

/-! ### Changes of variables -/

/-- The first variable that is set stays the first if nothing changes up to it. -/
theorem firstSet?_congr (h : ∀ name ∈ upToFirst env names, env'.get? name = env.get? name) :
    firstSet? env' names = firstSet? env names := by
  induction names with
  | nil => rfl
  | cons name names ih =>
    obtain ⟨hname, hrest⟩ := List.forall_mem_cons.1 h
    rw [firstSet?, firstSet?, List.findSome?_cons, List.findSome?_cons, hname]
    cases hvalue : env.get? name with
    | some value => rfl
    | none =>
      rw [hvalue] at hrest
      exact ih hrest

/-! ### Requests -/

/-- The proxy of a request, from the values of the variables. -/
theorem proxyFor_eq {client : Client} (h : collect env = .ok client.rules) (url : String)
    (base : Option String) : client.proxyFor url base =
      match (Client.target? url base).bind fun target ↦
          (firstSet? env (namesFor target.scheme)).bind address? with
      | none => .ok none
      | some proxy => (endpoint proxy).map some := by
  have hurl :
      ((Client.target? url base).bind fun target ↦ select target client.rules).map Rule.url =
      (Client.target? url base).bind fun target ↦
        (firstSet? env (namesFor target.scheme)).bind address? := by
    rw [Option.map_bind]
    exact Option.bind_congr fun target _ ↦ map_url_select h target
  rw [← hurl, Client.proxyFor]
  cases (Client.target? url base).bind fun target ↦ select target client.rules <;> rfl

/-- **A request goes through the proxy of the most important variable for its scheme that is set**,
and through none if no such variable is set or its address cannot be made out. Another environment
leads it through the same proxy if it has the same values up to this variable: whether a variable
that comes later or does not count for the scheme is changed, set or removed makes no difference. -/
theorem proxyFor_of_collect {client : Client} (h : collect env = .ok client.rules) (url : String)
    (base : Option String) :
    (∀ target, Client.target? url base = some target →
      (∀ value, firstSet? env (namesFor target.scheme) = some value →
        ∃ proxy, address? value = some proxy ∧
          client.proxyFor url base = (endpoint proxy).map some) ∧
      (firstSet? env (namesFor target.scheme) = none → client.proxyFor url base = .ok none)) ∧
    (Client.target? url base = none → client.proxyFor url base = .ok none) ∧
    ∀ (env' : Environment) (client' : Client), collect env' = .ok client'.rules →
      (∀ target ∈ Client.target? url base, ∀ name ∈ upToFirst env (namesFor target.scheme),
        env'.get? name = env.get? name) →
      client'.proxyFor url base = client.proxyFor url base := by
  have hproxy := proxyFor_eq h url base
  refine ⟨fun target htarget ↦ ⟨fun value hvalue ↦ ?_, fun hnone ↦ ?_⟩, fun hnone ↦ ?_,
    fun env' client' h' hsame ↦ ?_⟩
  · obtain ⟨proxy, haddress⟩ := exists_address?_of_firstSet? h hvalue
    refine ⟨proxy, haddress, ?_⟩
    rw [hproxy, htarget, Option.bind_some, hvalue, Option.bind_some, haddress]
  · rw [hproxy, htarget, Option.bind_some, hnone, Option.bind_none]
  · rw [hproxy, hnone, Option.bind_none]
  · have hfirst : ((Client.target? url base).bind fun target ↦
        (firstSet? env' (namesFor target.scheme)).bind address?) =
          (Client.target? url base).bind fun target ↦
            (firstSet? env (namesFor target.scheme)).bind address? :=
      Option.bind_congr fun target htarget ↦ by rw [firstSet?_congr (hsame target htarget)]
    rw [hproxy, proxyFor_eq h' url base, hfirst]

/-- An environment in which the most important variable for plain requests is empty, with more for
the variables that come later or do not count for them. -/
def sampleEnvironment (others : List (String × String)) : Environment :=
  .ofList ([("http_proxy", ""), ("HTTP_PROXY", "http://us%40er:pw@proxy.example:8080")] ++ others)

/-- A client with the rules of an environment. -/
def sampleClient (env : Environment) : Client where
  rules := sources.filterMap (ruleOf? env)

theorem proxyFor_of_collect_sampleEnvironment :
    let env := sampleEnvironment
      [("https_proxy", "secure.example"), ("ALL_PROXY", "all.example:1080")]
    let env' := sampleEnvironment [("all_proxy", "https://other.example")]
    collect env = .ok (sampleClient env).rules ∧ collect env' = .ok (sampleClient env').rules ∧
      (sampleClient env).proxyFor "/simple/" (some "http://pypi.org") =
        .ok (some ⟨"http", "proxy.example", 8080, some ("us@er", "pw")⟩) ∧
      (sampleClient env').proxyFor "/simple/" (some "http://pypi.org") =
        (sampleClient env).proxyFor "/simple/" (some "http://pypi.org") := by
  intro env env'
  have hcollect : collect env = .ok (sampleClient env).rules := by decide +kernel
  have hcollect' : collect env' = .ok (sampleClient env').rules := by decide +kernel
  obtain ⟨target, htarget, hscheme⟩ : ∃ target,
      Client.target? "/simple/" (some "http://pypi.org") = some target ∧
        target.scheme = "http".toList := by
    have hmap : (Client.target? "/simple/" (some "http://pypi.org")).map Url.scheme =
        some "http".toList := by decide +kernel
    exact Option.map_eq_some_iff.1 hmap
  obtain ⟨hfirst, -, hchange⟩ := proxyFor_of_collect hcollect "/simple/" (some "http://pypi.org")
  have hvalue : firstSet? env (namesFor target.scheme) =
      some "http://us%40er:pw@proxy.example:8080" := by
    rw [hscheme]
    decide +kernel
  obtain ⟨proxy, hproxy, hsent⟩ := (hfirst target htarget).1 _ hvalue
  have hendpoint : (address? "http://us%40er:pw@proxy.example:8080").map endpoint =
      some (.ok ⟨"http", "proxy.example", 8080, some ("us@er", "pw")⟩) := by decide +kernel
  rw [hproxy] at hendpoint
  refine ⟨hcollect, hcollect', ?_, hchange env' (sampleClient env') hcollect' ?_⟩
  · rw [hsent, Option.some.inj hendpoint]
    rfl
  · intro target' htarget' name hname
    obtain rfl : target = target' := Option.some.inj (htarget.symm.trans htarget')
    rw [hscheme] at hname
    have hnames : upToFirst env (namesFor "http".toList) = ["http_proxy", "HTTP_PROXY"] := by
      decide +kernel
    rw [hnames, List.mem_cons, List.mem_singleton] at hname
    rcases hname with rfl | rfl <;> rfl

end IndexSnapshot.Proxy
