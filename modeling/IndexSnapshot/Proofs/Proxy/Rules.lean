import IndexSnapshot.Client
import IndexSnapshot.Proofs.Config.Accepted

/-!
# Rules of an environment

An environment is accepted exactly if every variable for proxies that is set holds the address of
one, and its rules are those of the variables that are set, in the order of the variables
(`collect_eq_ok_iff`).
-/

namespace IndexSnapshot.Proxy

variable {env : Environment} {rules : List Rule} {name : String} {intercept : Intercept}

/-- The variable is not set, or holds the address of a proxy. -/
def HoldsAddress (env : Environment) (name : String) : Prop :=
  ∀ value ∈ env.get? name, (address? value).isSome = true

/-- The rule that a variable gives if it is set and holds the address of a proxy. -/
def ruleOf? (env : Environment) (source : String × Intercept) : Option Rule :=
  ((env.get? source.1).bind address?).map fun url ↦ ⟨source.2, url, source.1⟩

theorem rule_eq_ok_iff {found : Option Rule} :
    rule env name intercept = .ok found ↔
      HoldsAddress env name ∧ found = ruleOf? env (name, intercept) := by
  unfold rule HoldsAddress ruleOf?
  cases hvalue : env.get? name with
  | none => simp [@eq_comm _ _ found]
  | some value => cases haddress : address? value <;> simp [haddress, @eq_comm _ _ found]

theorem mapM_rule_eq_ok_iff {names : List (String × Intercept)} {found : List (Option Rule)} :
    names.mapM (fun (name, intercept) ↦ rule env name intercept) = .ok found ↔
      (∀ source ∈ names, HoldsAddress env source.1) ∧ found = names.map (ruleOf? env) := by
  induction names generalizing found with
  | nil => simp [pure, Except.pure, @eq_comm _ _ found]
  | cons source names ih =>
    rw [List.mapM_cons, List.forall_mem_cons, List.map_cons, Config.bind_eq_ok]
    constructor
    · rintro ⟨first, hfirst, h⟩
      obtain ⟨others, hothers, h⟩ := Config.bind_eq_ok.1 h
      cases h
      obtain ⟨hholds, rfl⟩ := rule_eq_ok_iff.1 hfirst
      obtain ⟨hall, rfl⟩ := ih.1 hothers
      exact ⟨⟨hholds, hall⟩, rfl⟩
    · rintro ⟨⟨hholds, hall⟩, rfl⟩
      exact ⟨_, rule_eq_ok_iff.2 ⟨hholds, rfl⟩, Config.bind_eq_ok.2 ⟨_, ih.2 ⟨hall, rfl⟩, rfl⟩⟩

/-- **The rules of an environment are those of the variables that are set**, all of which must hold
addresses of proxies. -/
theorem collect_eq_ok_iff : collect env = .ok rules ↔
    (∀ source ∈ sources, HoldsAddress env source.1) ∧ rules = sources.filterMap (ruleOf? env) := by
  rw [collect, Config.bind_eq_ok]
  simp only [mapM_rule_eq_ok_iff]
  constructor
  · rintro ⟨_, ⟨hholds, rfl⟩, h⟩
    cases h
    exact ⟨hholds, by rw [List.filterMap_map]; rfl⟩
  · rintro ⟨hholds, rfl⟩
    exact ⟨_, ⟨hholds, rfl⟩, by rw [List.filterMap_map]; rfl⟩

/-- The rules that come from a variable are those that it gives. -/
theorem filter_source_filterMap (env : Environment) (sources : List (String × Intercept))
    (name : String) : (sources.filterMap (ruleOf? env)).filter (fun rule ↦ rule.source = name) =
      (sources.filter fun source ↦ source.1 = name).filterMap (ruleOf? env) := by
  rw [List.filter_filterMap, List.filterMap_filter]
  refine congrArg (List.filterMap · sources) (funext fun source ↦ ?_)
  rw [ruleOf?]
  by_cases hname : source.1 = name <;>
    cases (env.get? source.1).bind address? <;> simp [hname]

end IndexSnapshot.Proxy
