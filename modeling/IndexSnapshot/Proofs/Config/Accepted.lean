import IndexSnapshot.Config

/-!
# Accepted configurations

A configuration is accepted when all checks of its settings succeed, and it holds what the settings
say: only the address of the index loses the slashes at its end. Facts about configurations are
taken from here, so that the order of the checks is looked at once.
-/

namespace IndexSnapshot.Config

/-- What is known of the configuration that settings give in an environment. -/
structure Accepted (s : Settings) (env : Environment) (config : Config) : Prop where
  checkUrl_simpleBase : checkUrl .simpleBase s.simpleBase = .ok ()
  checkUrl_packageBase : checkUrl .packageBase s.packageBase = .ok ()
  checkCount_concurrentResolve : checkCount .concurrentResolve s.concurrentResolve = .ok ()
  checkCount_requestTimeout : checkCount .requestTimeout s.requestTimeout = .ok ()
  checkCount_keepRecent : ∀ n ∈ s.keepRecent, checkCount .keepRecent n = .ok ()
  chooseStrategy_eq : chooseStrategy s env = .ok config.strategy
  simpleBase_eq : config.simpleBase = dropSlashes s.simpleBase
  packageBase_eq : config.packageBase = s.packageBase
  retention_eq : config.retention = s.keepRecent.map fun n ↦ ⟨n⟩
  concurrentResolve_eq : config.concurrentResolve = s.concurrentResolve
  requestTimeout_eq : config.requestTimeout = s.requestTimeout

theorem bind_eq_ok {ε α β : Type} {x : Except ε α} {f : α → Except ε β} {b : β} :
    (x >>= f) = .ok b ↔ ∃ a, x = .ok a ∧ f a = .ok b := by
  cases x with
  | error e => simp [bind, Except.bind]
  | ok a => simp [bind, Except.bind]

theorem eq_ok_of_toOption {ε α : Type} {x : Except ε α} {a : α} (h : x.toOption = some a) :
    x = .ok a :=
  match x, h with
  | .ok _, h => congrArg Except.ok (Option.some.inj h)

/-- **All checks of accepted settings succeed**, and the configuration is read off the settings. -/
theorem accepted_of_ofSettings {s : Settings} {env : Environment} {config : Config}
    (h : ofSettings s env = .ok config) : Accepted s env config := by
  obtain ⟨⟨⟩, hsimple, h⟩ := bind_eq_ok.1 h
  obtain ⟨⟨⟩, hpackage, h⟩ := bind_eq_ok.1 h
  obtain ⟨⟨⟩, hconcurrent, h⟩ := bind_eq_ok.1 h
  obtain ⟨⟨⟩, htimeout, h⟩ := bind_eq_ok.1 h
  have hrest : (∀ n ∈ s.keepRecent, checkCount .keepRecent n = .ok ()) ∧ ∃ strategy,
      chooseStrategy s env = .ok strategy ∧ config = {
        simpleBase := dropSlashes s.simpleBase
        packageBase := s.packageBase
        strategy
        retention := s.keepRecent.map fun n ↦ ⟨n⟩
        concurrentResolve := s.concurrentResolve
        requestTimeout := s.requestTimeout } := by
    cases hkeep : s.keepRecent with
    | none =>
      rw [hkeep] at h
      obtain ⟨strategy, hstrategy, hconfig⟩ := bind_eq_ok.1 h
      exact ⟨fun n hn ↦ absurd hn (Option.not_mem_none n), strategy, hstrategy,
        (Except.ok.inj hconfig).symm⟩
    | some n =>
      rw [hkeep] at h
      obtain ⟨⟨⟩, hcheck, h⟩ := bind_eq_ok.1 h
      obtain ⟨strategy, hstrategy, hconfig⟩ := bind_eq_ok.1 h
      refine ⟨fun m hm ↦ ?_, strategy, hstrategy, (Except.ok.inj hconfig).symm⟩
      rwa [← Option.some.inj hm]
  obtain ⟨hkeep, strategy, hstrategy, rfl⟩ := hrest
  exact ⟨hsimple, hpackage, hconcurrent, htimeout, hkeep, hstrategy, rfl, rfl, rfl, rfl, rfl⟩

/-- The index that names are read off is the one that the pages of packages belong to. -/
theorem Accepted.strategy_simpleBase {s : Settings} {env : Environment} {config : Config}
    (h : Accepted s env config) {base : String} {debug : Bool}
    (hstrategy : config.strategy = .fullIndex base debug) : base = config.simpleBase := by
  have hchosen := h.chooseStrategy_eq
  rw [hstrategy, chooseStrategy] at hchosen
  split at hchosen
  · obtain ⟨project, -, hpopular⟩ := bind_eq_ok.1 hchosen
    cases hpopular
  · cases hchosen
    exact h.simpleBase_eq.symm

theorem Accepted.isPositiveInteger {s : Settings} {env : Environment} {config : Config}
    (h : Accepted s env config) : config.concurrentResolve.isPositiveInteger = true := by
  have hcheck := h.checkCount_concurrentResolve
  rw [checkCount] at hcheck
  split at hcheck
  · rwa [h.concurrentResolve_eq]
  · cases hcheck

/-- The base of the files is the address of a web page. -/
theorem Accepted.exists_packageBase {s : Settings} {env : Environment} {config : Config}
    (h : Accepted s env config) :
    ∃ url, Url.parse? none config.packageBase = some url ∧ url.isWeb = true := by
  have hcheck := h.checkUrl_packageBase
  unfold checkUrl at hcheck
  split at hcheck
  · cases hcheck
  · rename_i url hurl
    split at hcheck
    · rename_i hweb
      exact ⟨url, h.packageBase_eq ▸ hurl, hweb⟩
    · cases hcheck

end IndexSnapshot.Config
