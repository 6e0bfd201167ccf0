import IndexSnapshot.Source
import IndexSnapshot.Proofs.Config.Accepted
import IndexSnapshot.Proofs.Number.Whole
import IndexSnapshot.Proofs.Scan.Session
import Mathlib.Logic.Function.Basic

/-!
# Packages do not disturb each other

A snapshot is made of blocks, one for each package found, in the order in which they were found. The
block of a package is a function of what the package's page answers (`contribution`); the base of
the files and the retention belong to the configuration. No answer stops a run, no order of arrival
changes the snapshot, and another answer for one page changes no block but those of its package.

For the last point discovery must not see the page: the root page of the index has an address that
no page of a package has, which holds for accepted configurations.
-/

namespace IndexSnapshot

/-- The world in which a page answers something else. -/
def World.withPage (world : World) (url : String) (response : Response) : World :=
  { world with fetch := Function.update world.fetch url response }

namespace Scan

/-! ### Addresses of pages -/

theorem pageUrl_injective (simpleBase : String) : Function.Injective (pageUrl simpleBase) := by
  intro name other h
  exact (String.append_right_inj _).1 ((String.append_left_inj _).1 h)

/-- The root page is not the page of a package. -/
theorem pageUrl_ne_root (simpleBase name : String) :
    pageUrl simpleBase name ≠ simpleBase ++ "/" := by
  intro h
  have hlength := congrArg String.length h
  simp only [pageUrl, String.length_append] at hlength
  have hslash : "/".length = 1 := rfl
  omega

/-! ### What a page yields -/

/-- An answer that lists no files: a failure, a body that is no text, or a page with a reference
that leads nowhere. -/
inductive Unusable (url : String) : Response → Prop where
  | failure (f : Failure) : Unusable url (.error f)
  | notText {body : Json} (h : ∀ page, body ≠ .string page) : Unusable url (.ok body)
  | broken {page : String} {anchor : Anchor} (hmem : anchor ∈ Anchor.all page)
      (h : Listing.artifact? url anchor = none) : Unusable url (.ok (.string page))

theorem artifacts?_eq_none {page url : String} {anchor : Anchor} (hmem : anchor ∈ Anchor.all page)
    (h : Listing.artifact? url anchor = none) : Listing.artifacts? page url = none := by
  have hnone : ∀ anchors : List Anchor, anchor ∈ anchors →
      anchors.mapM (Listing.artifact? url) = none := by
    intro anchors hmem
    induction anchors with
    | nil => exact absurd hmem List.not_mem_nil
    | cons first rest ih =>
      rw [List.mapM_cons]
      rcases List.mem_cons.1 hmem with rfl | hmem
      · rw [h]
        rfl
      · rw [ih hmem]
        cases Listing.artifact? url first <;> rfl
  exact hnone _ hmem

theorem listing_of_unusable {url : String} {response : Response} (h : Unusable url response) :
    ∃ e, listing url response = .error e := by
  cases h with
  | failure f => exact ⟨.failed f, rfl⟩
  | @notText body h =>
    refine ⟨.notText, ?_⟩
    cases body with
    | string page => exact absurd rfl (h page)
    | _ => rfl
  | broken hmem h =>
    refine ⟨.invalidUrl, ?_⟩
    rw [listing, artifacts?_eq_none hmem h]

end Scan

namespace Retention

/-- The files that are left of a list under a budget, if there is one. -/
def kept (budget : Option Budget) (artifacts : List Artifact) : List Artifact :=
  match budget with
  | none => artifacts
  | some b => if unknown artifacts = [] then keep b (candidates artifacts) else artifacts

/-- The name of a package has no influence on what is kept of it. -/
theorem truncate_fst (packageName : String) (budget : Budget) (artifacts : List Artifact) :
    (truncate packageName budget artifacts).1 = kept (some budget) artifacts := by
  unfold truncate kept
  split
  · rename_i hnone
    show keep budget (candidates artifacts) = if unknown artifacts = [] then _ else _
    rw [if_pos hnone]
  · rename_i hsome
    show artifacts = if unknown artifacts = [] then _ else _
    rw [if_neg hsome]

end Retention

namespace Source

/-- The entries that the page at an address contributes. -/
def contribution (retention : Option Retention.Budget) (packageBase url : String)
    (response : Response) : List String :=
  match Scan.listing url response with
  | .error _ => []
  | .ok artifacts => Assembly.entries (Assembly.withSlash packageBase)
      ((Retention.kept retention artifacts).map Artifact.url)

theorem contribution_of_unusable {retention : Option Retention.Budget} {packageBase url : String}
    {response : Response} (h : Scan.Unusable url response) :
    contribution retention packageBase url response = [] := by
  obtain ⟨e, he⟩ := Scan.listing_of_unusable h
  rw [contribution, he]

/-- The entries of a package are what its page contributes. -/
theorem entries_files (world : World) (config : Config) (name : String) :
    Assembly.entries (Assembly.withSlash config.packageBase)
        ((Scan.files world (scanOptions config) name).map Artifact.url) =
      contribution config.retention config.packageBase (Scan.pageUrl config.simpleBase name)
        (world.fetch (Scan.pageUrl config.simpleBase name)) := by
  rw [Scan.files, Scan.package, contribution]
  simp only [scanOptions]
  cases Scan.listing (Scan.pageUrl config.simpleBase name)
      (world.fetch (Scan.pageUrl config.simpleBase name)) with
  | error e => rfl
  | ok artifacts =>
    cases config.retention with
    | none => rfl
    | some budget => simp only [Retention.truncate_fst]

/-- The block of a package in a snapshot. -/
def block (world : World) (config : Config) (name : String) : List String :=
  contribution config.retention config.packageBase (Scan.pageUrl config.simpleBase name)
    (world.fetch (Scan.pageUrl config.simpleBase name))

theorem assemble_files (world : World) (config : Config) (names : List String) :
    (Assembly.assemble (names.map (Scan.files world (scanOptions config))) config.packageBase).1 =
      names.flatMap (block world config) := by
  show Assembly.entries (Assembly.withSlash config.packageBase)
    (Assembly.addresses (names.map (Scan.files world (scanOptions config)))) = _
  rw [Assembly.addresses, Assembly.entries, List.map_flatten, List.filterMap_flatten,
    List.map_map, List.map_map, List.flatMap_def]
  exact congrArg List.flatten (List.map_congr_left fun name _ ↦ entries_files world config name)

/-! ### Snapshots -/

variable {s : Settings} {env : Environment} {config : Config} {world : World}
  {names : List String}

/-- Once the names are known, a snapshot under a schedule is that of all blocks, or there is none as
long as pages are missing. -/
theorem snapshotOn_fst {n : ℕ}
    (hlimit : Scan.Limit.ofNumber? config.concurrentResolve = some (.atMost n))
    (hfound : (Discovery.run world config.strategy).1 = .ok names)
    (schedule : List String → List ℕ) : (snapshotOn schedule world config).1 =
      if Scan.Complete (.atMost n) names.length (schedule names) then
        some (.ok (names.flatMap (block world config)))
      else none := by
  obtain ⟨trace, hrun⟩ :=
    Scan.exists_runOn_eq hlimit (schedule names) world (scanOptions config) names
  obtain ⟨found, hdiscovery⟩ : ∃ found, Discovery.run world config.strategy = (.ok names, found) :=
    ⟨_, Prod.ext hfound rfl⟩
  rw [snapshotOn, hdiscovery]
  by_cases hcomplete : Scan.Complete (.atMost n) names.length (schedule names)
  · rw [if_pos hcomplete] at hrun ⊢
    simp only [hrun]
    rw [assemble_files]
  · rw [if_neg hcomplete] at hrun ⊢
    simp only [hrun]

/-- Discovery does not see the page of a package. -/
theorem run_withPage (h : Config.Accepted s env config) (name : String) (response : Response) :
    Discovery.run (world.withPage (Scan.pageUrl config.simpleBase name) response) config.strategy =
      Discovery.run world config.strategy := by
  cases hstrategy : config.strategy with
  | popularity projectId credentials debug => rfl
  | fullIndex base debug =>
    have hroot : (world.withPage (Scan.pageUrl config.simpleBase name) response).fetch
        (base ++ "/") = world.fetch (base ++ "/") := by
      rw [h.strategy_simpleBase hstrategy]
      exact Function.update_of_ne (Scan.pageUrl_ne_root config.simpleBase name).symm _ _
    rw [Discovery.run, Discovery.run, Discovery.fromIndex, Discovery.fromIndex, hroot]

/-- Another answer for the page of a package is seen by the blocks of that package alone. -/
theorem block_withPage (config : Config) (world : World) (name : String) (response : Response)
    (other : String) : block (world.withPage (Scan.pageUrl config.simpleBase name) response) config
        other =
      if other = name then contribution config.retention config.packageBase
        (Scan.pageUrl config.simpleBase name) response
      else block world config other := by
  by_cases hname : other = name
  · rw [if_pos hname, hname, block]
    show contribution _ _ _ (Function.update world.fetch _ response _) = _
    rw [Function.update_self]
  · have hpage : Scan.pageUrl config.simpleBase other ≠ Scan.pageUrl config.simpleBase name :=
      (Scan.pageUrl_injective config.simpleBase).ne hname
    rw [if_neg hname, block, block]
    show contribution _ _ _ (Function.update world.fetch _ response _) = _
    rw [Function.update_of_ne hpage]

/-- The packages of a run, at most `n` of which are scanned at a time, do not disturb each other. -/
structure Isolated (n : ℕ) (world : World) (config : Config) (names : List String) : Prop where
  /-- Under every schedule the snapshot is that of all blocks, once all pages have arrived. -/
  value : ∀ schedule : List String → List ℕ, (snapshotOn schedule world config).1 =
    if Scan.Complete (.atMost n) names.length (schedule names) then
      some (.ok (names.flatMap (block world config)))
    else none
  /-- All pages arrive in every order in which each comes once and after it was asked for. -/
  complete : ∀ order : List ℕ, order.Perm (List.range names.length) →
    (∀ j (hj : j < order.length), order[j] < n + j) →
      Scan.Complete (.atMost n) names.length order
  /-- A page that cannot be used makes no entries. -/
  unusable : ∀ name : String, Scan.Unusable (Scan.pageUrl config.simpleBase name)
    (world.fetch (Scan.pageUrl config.simpleBase name)) → block world config name = []
  /-- Another answer for the page of a package changes the blocks of that package alone. -/
  changed : ∀ (name : String) (response : Response) (schedule : List String → List ℕ),
    (snapshotOn schedule (world.withPage (Scan.pageUrl config.simpleBase name) response)
        config).1 =
      if Scan.Complete (.atMost n) names.length (schedule names) then
        some (.ok (names.flatMap fun other ↦
          if other = name then contribution config.retention config.packageBase
            (Scan.pageUrl config.simpleBase name) response
          else block world config other))
      else none

/-- **The packages of an accepted configuration do not disturb each other**, however many of them
are scanned at a time. -/
theorem exists_isolated {changes : Settings.Changes}
    (haccepted : Config.resolve s changes env = .ok config)
    (hfound : (Discovery.run world config.strategy).1 = .ok names) :
    ∃ n : ℕ, 1 ≤ n ∧ config.concurrentResolve.toInt? = some (n : ℤ) ∧
      Isolated n world config names := by
  have hconfig := Config.accepted_of_ofSettings haccepted
  obtain ⟨n, hn, hwhole⟩ :=
    Binary64.exists_toInt?_of_isPositiveInteger hconfig.isPositiveInteger
  have hlimit := Scan.Limit.ofNumber?_of_toInt? hn hwhole
  refine ⟨n, hn, hwhole, snapshotOn_fst hlimit hfound, ?_, ?_, ?_⟩
  · intro order hperm hasked
    refine Scan.complete_of_perm hperm fun j hj ↦ lt_min ?_ (hasked j hj)
    exact List.mem_range.1 (hperm.mem_iff.1 (List.getElem_mem hj))
  · exact fun name h ↦ contribution_of_unusable h
  · intro name response schedule
    have hnames : (Discovery.run (world.withPage (Scan.pageUrl config.simpleBase name) response)
        config.strategy).1 = .ok names := by
      rw [run_withPage hconfig, hfound]
    have hblocks := funext (block_withPage config world name response)
    rw [snapshotOn_fst hlimit hnames schedule, hblocks]

/-- Settings of an index with a slash too many, two packages being scanned at a time. -/
def sampleSettings : Settings :=
  { Settings.defaults with
    simpleBase := "https://host/simple/", packageBase := "https://host/packages",
    concurrentResolve := 2 }

/-- The configuration of the sample settings. -/
def sampleConfig : Config where
  simpleBase := "https://host/simple"
  packageBase := "https://host/packages"
  strategy := .fullIndex "https://host/simple" false
  retention := none
  concurrentResolve := 2
  requestTimeout := 30000

/-- Pages of an index that names one package twice and another one whose page is missing. -/
def samplePages : List (String × String) :=
  [("https://host/simple/",
    "<a href=\"foo/\">foo</a><a href=\"bar/\">bar</a><a href=\"foo/\">foo</a>"),
    ("https://host/simple/foo/", "<a href=\"/packages/f/foo-1.0.tar.gz\">foo-1.0.tar.gz</a>")]

def sampleWorld : World where
  fetch url := (samplePages.lookup url).elim (.error (.bare "gone")) fun page ↦ .ok (.string page)
  warehouse := .unreachable "no network"

theorem resolve_sampleSettings :
    Config.resolve sampleSettings [] (.ofList []) = .ok sampleConfig := by
  have hsome : (Config.resolve sampleSettings [] (.ofList [])).toOption = some sampleConfig := by
    decide +kernel
  exact Config.eq_ok_of_toOption hsome

theorem run_sampleWorld :
    (Discovery.run sampleWorld sampleConfig.strategy).1 = .ok ["foo", "bar", "foo"] := by
  have hroot : sampleWorld.fetch ("https://host/simple" ++ "/") =
      .ok (.string "<a href=\"foo/\">foo</a><a href=\"bar/\">bar</a><a href=\"foo/\">foo</a>") := by
    have hlookup : samplePages.lookup ("https://host/simple" ++ "/") =
        some "<a href=\"foo/\">foo</a><a href=\"bar/\">bar</a><a href=\"foo/\">foo</a>" := by decide
    rw [sampleWorld]
    simp only [hlookup, Option.elim_some]
  have hnames : Discovery.namesOnPage
      "<a href=\"foo/\">foo</a><a href=\"bar/\">bar</a><a href=\"foo/\">foo</a>" false =
        ["foo", "bar", "foo"] := by decide +kernel
  rw [sampleConfig, Discovery.run, Discovery.fromIndex, hroot]
  simp only [hnames]

/-- The two blocks of one package and the empty block of the other in a world of three pages. -/
theorem exists_isolated_sampleWorld :
    Config.resolve sampleSettings [] (.ofList []) = .ok sampleConfig ∧
      (Discovery.run sampleWorld sampleConfig.strategy).1 = .ok ["foo", "bar", "foo"] ∧
      ∃ n : ℕ, 1 ≤ n ∧ sampleConfig.concurrentResolve.toInt? = some (n : ℤ) ∧
        Isolated n sampleWorld sampleConfig ["foo", "bar", "foo"] :=
  ⟨resolve_sampleSettings, run_sampleWorld,
    exists_isolated resolve_sampleSettings run_sampleWorld⟩

end Source

end IndexSnapshot
