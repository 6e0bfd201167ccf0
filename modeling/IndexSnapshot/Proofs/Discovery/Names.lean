import IndexSnapshot.Proofs.Source.Isolation

/-!
# All names or none

Discovery finds all names that its strategy looks for, or it fails with an error of this strategy
(`Discovery.AllOrNone`). What is found is a relation between the world and the names
(`Discovery.Finds`): the root page must be a text, or the query must answer rows, each of which has
a name. A single row without a name is enough for a failure, wherever it stands, since the names of
rows and the rows correspond one to one (`rowNamesFrom_eq_ok_iff`).

A snapshot whose packages are not found is abandoned (`Source.Abandoned`): nothing happens but what
discovery has done, and discovery asks for the root page at most and says nothing of progress.
-/

namespace IndexSnapshot

namespace Discovery

variable {world : World} {strategy : Strategy} {value : Json} {values : List Json} {name : String}
  {names : List String} {row : ℕ} {e : Error}

/-! ### Names in rows -/

/-- The row has the name of a package, which is a text. -/
def HasName (value : Json) (name : String) : Prop :=
  value.member? "project" = some (.string name)

theorem rowName_eq_ok_iff : rowName row value = .ok name ↔ HasName value name := by
  unfold rowName HasName
  split
  · rename_i found hfound
    rw [hfound, Except.ok.injEq, Option.some.injEq, Json.string.injEq]
  · rename_i hother
    exact ⟨nofun, fun h ↦ absurd h (hother name)⟩

/-- **Rows have names exactly if each of them has one**, and the names stand in the order of the
rows. -/
theorem rowNamesFrom_eq_ok_iff :
    rowNamesFrom row values = .ok names ↔ List.Forall₂ HasName values names := by
  induction values generalizing row names with
  | nil =>
    rw [rowNamesFrom, Except.ok.injEq, List.forall₂_nil_left_iff]
    exact eq_comm
  | cons value values ih =>
    rw [rowNamesFrom, Config.bind_eq_ok, List.forall₂_cons_left_iff]
    refine exists_congr fun name ↦ ?_
    rw [rowName_eq_ok_iff, Config.bind_eq_ok]
    constructor
    · rintro ⟨hname, rest, hrest, hnames⟩
      exact ⟨rest, hname, ih.1 hrest, (Except.ok.inj hnames).symm⟩
    · rintro ⟨rest, hname, hrest, rfl⟩
      exact ⟨hname, rest, ih.2 hrest, rfl⟩

theorem exists_forall₂_hasName_iff :
    (∃ names, List.Forall₂ HasName values names) ↔ ∀ v ∈ values, ∃ name, HasName v name := by
  induction values with
  | nil => exact ⟨fun _ ↦ List.forall_mem_nil _, fun _ ↦ ⟨[], .nil⟩⟩
  | cons value values ih =>
    rw [List.forall_mem_cons, ← ih]
    constructor
    · rintro ⟨_, _ | ⟨hname, hnames⟩⟩
      exact ⟨⟨_, hname⟩, _, hnames⟩
    · rintro ⟨⟨name, hname⟩, names, hnames⟩
      exact ⟨name :: names, .cons hname hnames⟩

/-! ### What a strategy finds -/

/-- The pages that a strategy asks for: the root page of the index, or none. -/
def Strategy.pages : Strategy → List String
  | .fullIndex simpleBase _ => [simpleBase ++ "/"]
  | .popularity .. => []

/-- The names that a strategy finds in a world. -/
inductive Finds (world : World) : Strategy → List String → Prop
  /-- The root page is a text, and the names are those on it, or on its first part in debug mode. -/
  | index {simpleBase page : String} {debug : Bool}
      (hpage : world.fetch (simpleBase ++ "/") = .ok (.string page)) :
      Finds world (.fullIndex simpleBase debug) (namesOnPage page debug)
  /-- The query answers, and the names are those of all rows among the values that it answers. -/
  | rows {projectId : String} {credentials : Credentials} {debug : Bool} {values : List Json}
      {names : List String} (hanswer : world.warehouse = .answering values)
      (hnames : List.Forall₂ HasName (rows values) names) :
      Finds world (.popularity projectId credentials debug) names

/-- The world lets a strategy find names: the root page is a text, or the query answers values of
which every object and every list has a name. -/
def Serves (world : World) : Strategy → Prop
  | .fullIndex simpleBase _ => ∃ page, world.fetch (simpleBase ++ "/") = .ok (.string page)
  | .popularity .. => ∃ values, world.warehouse = .answering values ∧
      ∀ v ∈ values, isRow v = true → ∃ name, HasName v name

/-- Names are found exactly if the world lets them be found. -/
theorem exists_finds_iff : (∃ names, Finds world strategy names) ↔ Serves world strategy := by
  cases strategy with
  | fullIndex simpleBase debug =>
    exact ⟨fun ⟨_, .index hpage⟩ ↦ ⟨_, hpage⟩, fun ⟨_, hpage⟩ ↦ ⟨_, .index hpage⟩⟩
  | popularity projectId credentials debug =>
    have hrows : ∀ values, (∃ names, List.Forall₂ HasName (rows values) names) ↔
        ∀ v ∈ values, isRow v = true → ∃ name, HasName v name := by
      intro values
      rw [exists_forall₂_hasName_iff, rows]
      simp only [List.mem_filter, and_imp]
    constructor
    · rintro ⟨names, ⟨⟩ | ⟨hanswer, hnames⟩⟩
      exact ⟨_, hanswer, (hrows _).1 ⟨names, hnames⟩⟩
    · rintro ⟨values, hanswer, hall⟩
      obtain ⟨names, hnames⟩ := (hrows values).2 hall
      exact ⟨names, .rows hanswer hnames⟩

/-- **A strategy answers the names that it finds**, and no others. -/
theorem run_eq_ok_iff : (run world strategy).1 = .ok names ↔ Finds world strategy names := by
  cases strategy with
  | fullIndex simpleBase debug =>
    have hfinds : Finds world (.fullIndex simpleBase debug) names ↔
        ∃ page, world.fetch (simpleBase ++ "/") = .ok (.string page) ∧
          namesOnPage page debug = names :=
      ⟨fun | .index hpage => ⟨_, hpage, rfl⟩, fun ⟨_, hpage, hnames⟩ ↦ hnames ▸ .index hpage⟩
    rw [hfinds, run, fromIndex]
    split
    · rename_i failure hfailure
      simp [hfailure]
    · rename_i page hpage
      simp [hpage]
    · rename_i body hnotText hbody
      simpa [hbody] using fun page heq ↦ absurd heq (hnotText page)
  | popularity projectId credentials debug =>
    have hfinds : Finds world (.popularity projectId credentials debug) names ↔
        ∃ values, world.warehouse = .answering values ∧ rowNames (rows values) = .ok names := by
      constructor
      · intro h
        cases h with
        | rows hanswer hnames => exact ⟨_, hanswer, rowNamesFrom_eq_ok_iff.2 hnames⟩
      · rintro ⟨values, hanswer, hnames⟩
        exact .rows hanswer (rowNamesFrom_eq_ok_iff.1 hnames)
    rw [hfinds, run]
    cases world.warehouse with
    | unreachable message => simp [fromWarehouse]
    | refusing message => simp [fromWarehouse]
    | answering values => cases hnames : rowNames (rows values) <;> simp [fromWarehouse, hnames]

/-! ### What happens meanwhile -/

/-- **A failure is one of the strategy that failed.** -/
theorem kind_of_run_eq_error (h : (run world strategy).1 = .error e) : e.kind = strategy.kind := by
  cases strategy with
  | fullIndex simpleBase debug =>
    rw [run, fromIndex] at h
    split at h <;> cases h <;> rfl
  | popularity projectId credentials debug =>
    rw [run] at h
    cases hanswer : world.warehouse with
    | unreachable message =>
      rw [hanswer] at h
      cases h
      rfl
    | refusing message =>
      rw [hanswer] at h
      cases h
      rfl
    | answering values =>
      rw [hanswer, fromWarehouse] at h
      split at h
      · cases h
      · cases h
        rfl

/-- What is said before a query is made. -/
def announced (projectId : String) (debug : Bool) : List Notice :=
  (if debug then [.debugIgnored] else []) ++ [.querying projectId]

/-- A query is announced, whether it is made or not. -/
theorem fromWarehouse_snd (warehouse : Warehouse) (projectId : String) (credentials : Credentials)
    (debug : Bool) : ∃ billings : List Billing,
      (fromWarehouse warehouse projectId credentials debug).2 =
        (announced projectId debug).map .notice ++ billings.map .query := by
  have hsaid : (if debug then [Event.notice .debugIgnored] else []) ++
      [Event.notice (.querying projectId)] = (announced projectId debug).map .notice := by
    cases debug <;> rfl
  cases warehouse with
  | unreachable message =>
    refine ⟨[], ?_⟩
    rw [fromWarehouse, hsaid, List.map_nil, List.append_nil]
  | refusing message =>
    refine ⟨[⟨projectId, credentials.keyFile?⟩], ?_⟩
    rw [fromWarehouse, hsaid, List.map_singleton]
  | answering values =>
    refine ⟨[⟨projectId, credentials.keyFile?⟩], ?_⟩
    rw [fromWarehouse, hsaid]
    split <;> rfl

/-- **All that happens while names are looked for**: notices, the pages that the strategy asks for,
and queries. -/
theorem exists_events_run (world : World) (strategy : Strategy) :
    ∃ (said later : List Notice) (billings : List Billing), (run world strategy).2 =
      said.map .notice ++ strategy.pages.map .request ++ billings.map .query ++
        later.map .notice := by
  cases strategy with
  | fullIndex simpleBase debug =>
    refine ⟨[.fetchingIndex simpleBase], ?_⟩
    rw [run, fromIndex]
    split
    · exact ⟨[], [], rfl⟩
    · exact ⟨[.readingIndex], [], rfl⟩
    · exact ⟨[], [], rfl⟩
  | popularity projectId credentials debug =>
    obtain ⟨billings, hevents⟩ := fromWarehouse_snd world.warehouse projectId credentials debug
    exact ⟨announced projectId debug, [], billings, by simp [run, hevents, Strategy.pages]⟩

/-- No page is asked for but the root page of the index. -/
theorem requests_run (world : World) (strategy : Strategy) :
    Event.requests (run world strategy).2 = strategy.pages := by
  obtain ⟨said, later, billings, hevents⟩ := exists_events_run world strategy
  simp [hevents, Event.requests, List.filterMap_map]

/-- There is no progress to speak of before the names are known. -/
theorem steps_run (world : World) (strategy : Strategy) :
    Event.steps (run world strategy).2 = [] := by
  obtain ⟨said, later, billings, hevents⟩ := exists_events_run world strategy
  simp [hevents, Event.steps, List.filterMap_map]

/-- Discovery finds all names that its strategy looks for, or it fails. -/
structure AllOrNone (world : World) (strategy : Strategy) : Prop where
  /-- The names answered are all that the strategy finds. -/
  ok_iff : ∀ names, (run world strategy).1 = .ok names ↔ Finds world strategy names
  /-- There is an answer exactly if the world lets names be found. -/
  exists_ok_iff : (∃ names, (run world strategy).1 = .ok names) ↔ Serves world strategy
  /-- Otherwise there is an error of the strategy. -/
  exists_error : ¬ Serves world strategy →
    ∃ e, (run world strategy).1 = .error e ∧ e.kind = strategy.kind
  /-- No page is asked for but the root page of the index. -/
  requests : Event.requests (run world strategy).2 = strategy.pages

theorem allOrNone (world : World) (strategy : Strategy) : AllOrNone world strategy := by
  have hserves : (∃ names, (run world strategy).1 = .ok names) ↔ Serves world strategy := by
    simp only [run_eq_ok_iff, exists_finds_iff]
  refine ⟨fun _ ↦ run_eq_ok_iff, hserves, fun hnot ↦ ?_, requests_run world strategy⟩
  cases hrun : (run world strategy).1 with
  | ok names => exact absurd (hserves.1 ⟨names, hrun⟩) hnot
  | error e => exact ⟨e, rfl, kind_of_run_eq_error hrun⟩

end Discovery

namespace Source

variable {world : World} {config : Config} {e : Discovery.Error}

/-- The snapshot of a configuration is given up, since its packages are not found. -/
structure Abandoned (config : Config) (e : Discovery.Error)
    (outcome : Option (Except Error (List String)) × List Event) : Prop where
  /-- The failure of discovery is that of the snapshot. -/
  answer : outcome.1 = some (.error (.discovery e))
  /-- No page is asked for but the root page of the index. -/
  requests : Event.requests outcome.2 = config.strategy.pages
  /-- Under an accepted configuration this is the page of no package. -/
  notMem : ∀ {s : Settings} {changes : Settings.Changes} {env : Environment},
    Config.resolve s changes env = .ok config →
      ∀ name, Scan.pageUrl config.simpleBase name ∉ Event.requests outcome.2
  /-- No progress is shown. -/
  steps : Event.steps outcome.2 = []

theorem snapshotOn_of_error (h : (Discovery.run world config.strategy).1 = .error e)
    (schedule : List String → List ℕ) : snapshotOn schedule world config =
      (some (.error (.discovery e)), (Discovery.run world config.strategy).2) := by
  obtain ⟨found, hrun⟩ : ∃ found, Discovery.run world config.strategy = (.error e, found) :=
    ⟨_, Prod.ext h rfl⟩
  rw [snapshotOn, hrun]

/-- The pages that an accepted configuration asks for to find packages are pages of no package. -/
theorem pageUrl_notMem_pages {s : Settings} {env : Environment} (h : Config.Accepted s env config)
    (name : String) : Scan.pageUrl config.simpleBase name ∉ config.strategy.pages := by
  cases hstrategy : config.strategy with
  | popularity projectId credentials debug => exact List.not_mem_nil
  | fullIndex base debug =>
    obtain rfl := h.strategy_simpleBase hstrategy
    exact fun hmem ↦ Scan.pageUrl_ne_root _ _ (List.mem_singleton.1 hmem)

/-- **All names are found or none**, and a snapshot whose names are not found is given up before any
package is looked at, in whatever order pages arrive. -/
theorem allOrNone_snapshotOn (world : World) (config : Config) (schedule : List String → List ℕ) :
    Discovery.AllOrNone world config.strategy ∧
      ∀ e, (Discovery.run world config.strategy).1 = .error e →
        Abandoned config e (snapshotOn schedule world config) := by
  refine ⟨Discovery.allOrNone world config.strategy, fun e hrun ↦ ?_⟩
  have hrequests := Discovery.requests_run world config.strategy
  rw [snapshotOn_of_error hrun]
  refine ⟨rfl, hrequests, fun hconfig name hmem ↦ ?_, Discovery.steps_run _ _⟩
  rw [hrequests] at hmem
  exact pageUrl_notMem_pages (Config.accepted_of_ofSettings hconfig) name hmem

/-- A query whose values are a package, a number, a list, and a package without a name. -/
def brokenWorld : World where
  fetch _ := .error (.bare "gone")
  warehouse := .answering [.object [("project", .string "boto3")], .number 1, .array [],
    .object [("project", .null)]]

/-- The packages that are installed most often, paid for by a project. -/
def popularConfig : Config :=
  { sampleConfig with strategy := .popularity "payer" .instanceMetadata false }

/-- The number is no row, so that the list is row 1, and the first one that has no name. -/
theorem allOrNone_snapshotOn_brokenWorld :
    (Discovery.run brokenWorld popularConfig.strategy).1 =
        .error (.queryFailed "잘못된 패키지명 (행 1): undefined") ∧
      Abandoned popularConfig (.queryFailed "잘못된 패키지명 (행 1): undefined")
        (snapshotOn Scan.inOrder brokenWorld popularConfig) := by
  have hrun : (Discovery.run brokenWorld popularConfig.strategy).1 =
      .error (.queryFailed "잘못된 패키지명 (행 1): undefined") := by
    rfl
  exact ⟨hrun, (allOrNone_snapshotOn brokenWorld popularConfig Scan.inOrder).2 _ hrun⟩

end Source

end IndexSnapshot
