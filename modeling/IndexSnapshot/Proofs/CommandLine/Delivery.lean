import IndexSnapshot.CommandLine.Run
import IndexSnapshot.Proofs.Discovery.Names
import IndexSnapshot.Proofs.Retention.Verdict
import IndexSnapshot.Proofs.Assembly.Inverse
import IndexSnapshot.Proofs.Text.Lines
import IndexSnapshot.Proofs.Url.Cleaned

/-!
# All of a snapshot or nothing

A run that takes a snapshot writes nothing to its output, or all entries of the snapshot, a line for
each (`CommandLine.delivery_takeSnapshot`). Nothing is written before the snapshot is known, and the
log stays off the output. That lines are not cut within an entry is due to the addresses on the page
of a package: each is the written form of a locator, in which there is no control whatever the
reference on the page holds (`Url.isClear_of_cleaned?`), and an entry is the end of such an address.

The pages of an accepted configuration all arrive in the order in which they were asked for, so that
there is a snapshot as soon as the packages are found (`Source.snapshot_of_found`).
-/

namespace IndexSnapshot

open Text (IsClear isClear_append)

/-! ### Entries are clear -/

namespace Listing

theorem isClear_of_artifact? {pageUrl : String} {anchor : Anchor} {a : Artifact}
    (h : artifact? pageUrl anchor = some a) : IsClear a.url.toList := by
  obtain ⟨pageLocator, -, h⟩ := Option.bind_eq_some_iff.1 h
  obtain ⟨found, -, h⟩ := Option.bind_eq_some_iff.1 h
  obtain ⟨address, haddress, h⟩ := Option.bind_eq_some_iff.1 h
  cases h
  exact Url.isClear_of_cleaned? haddress

/-- There is no control in the address of a file on a page. -/
theorem isClear_of_artifacts? {page pageUrl : String} {artifacts : List Artifact}
    (h : artifacts? page pageUrl = some artifacts) : ∀ a ∈ artifacts, IsClear a.url.toList :=
  Text.forall_mem_of_mapM (fun _ _ ↦ isClear_of_artifact?) h

/-- Breaks in a reference are left out, and other controls are encoded. -/
example : (artifacts? "<a href=\"a\r\n\x0bb\">c</a>" "https://host/simple/p/").map
    (List.map Artifact.url) = some ["https://host/simple/p/a%0Bb"] := by
  decide +kernel

end Listing

namespace Scan

variable {options : Options} {packageName : String} {response : Response} {a : Artifact}

/-- What a package contributes is listed on its page. -/
theorem exists_listing_of_mem_package (h : a ∈ (package options packageName response).1) :
    ∃ artifacts, listing (pageUrl options.simpleBase packageName) response = .ok artifacts ∧
      a ∈ artifacts := by
  unfold package at h
  split at h
  · exact absurd h List.not_mem_nil
  · rename_i artifacts hlisting
    refine ⟨artifacts, hlisting, ?_⟩
    split at h
    · exact h
    · rename_i budget _
      exact Retention.truncate_subset packageName budget artifacts h

/-- What is listed is listed on a page that is a text. -/
theorem exists_page_of_listing {url : String} {artifacts : List Artifact}
    (h : listing url response = .ok artifacts) :
    ∃ page, response = .ok (.string page) ∧ Listing.artifacts? page url = some artifacts := by
  unfold listing at h
  split at h
  · cases h
  · rename_i page
    split at h
    · rename_i hartifacts
      cases h
      exact ⟨page, rfl, hartifacts⟩
    · cases h
  · cases h

theorem isClear_of_mem_package (h : a ∈ (package options packageName response).1) :
    IsClear a.url.toList := by
  obtain ⟨artifacts, hlisting, hmem⟩ := exists_listing_of_mem_package h
  obtain ⟨page, -, hartifacts⟩ := exists_page_of_listing hlisting
  exact Listing.isClear_of_artifacts? hartifacts a hmem

end Scan

namespace Source

variable {world : World} {config : Config} {names : List String} {s : Settings}
  {changes : Settings.Changes} {env : Environment}

/-- There is no control in the entries of packages. -/
theorem isClear_of_mem_blocks {entry : String} (h : entry ∈ names.flatMap (block world config)) :
    IsClear entry.toList := by
  rw [← assemble_files] at h
  obtain ⟨url, hurl, hplace⟩ := List.mem_filterMap.1 h
  obtain ⟨a, ha, rfl⟩ := List.mem_map.1 hurl
  obtain ⟨files, hfiles, hmem⟩ := List.mem_flatten.1 ha
  obtain ⟨name, -, rfl⟩ := List.mem_map.1 hfiles
  have hclear : IsClear a.url.toList := Scan.isClear_of_mem_package hmem
  rw [Assembly.place?_eq_some_iff.1 hplace, String.toList_append, isClear_append] at hclear
  exact hclear.2

/-- The base in front of the entries of packages gives the addresses of their files below the
base. -/
theorem map_append_blocks (world : World) (config : Config) (names : List String) :
    (names.flatMap (block world config)).map (Assembly.address · config.packageBase) =
      ((names.map (Scan.files world (scanOptions config))).flatten.map Artifact.url).filter
        (Assembly.Below (Assembly.withSlash config.packageBase) ·) := by
  rw [← assemble_files]
  exact Assembly.map_append_entries _ _

/-! ### Snapshots of accepted configurations -/

/-- An accepted configuration sets a limit to the pages that are asked for at a time. -/
theorem exists_ofNumber?_of_resolve (h : Config.resolve s changes env = .ok config) :
    ∃ n, 1 ≤ n ∧ Scan.Limit.ofNumber? config.concurrentResolve = some (.atMost n) := by
  have hpositive := (Config.accepted_of_ofSettings h).isPositiveInteger
  obtain ⟨n, hn, hwhole⟩ := Binary64.exists_toInt?_of_isPositiveInteger hpositive
  exact ⟨n, hn, Scan.Limit.ofNumber?_of_toInt? hn hwhole⟩

/-- **There is a snapshot once the packages are found.** -/
theorem snapshot_of_found (h : Config.resolve s changes env = .ok config)
    (hfound : (Discovery.run world config.strategy).1 = .ok names) :
    (snapshot world config).1 = some (.ok (names.flatMap (block world config))) := by
  obtain ⟨n, hn, hlimit⟩ := exists_ofNumber?_of_resolve h
  have hcomplete : Scan.Complete (.atMost n) names.length (List.range names.length) := by
    refine Scan.complete_of_perm (List.Perm.refl _) fun j hj ↦ ?_
    have hjobs : j < names.length := by simpa using hj
    rw [List.getElem_range]
    exact lt_min hjobs (by omega)
  rw [snapshot, snapshotOn_fst hlimit hfound, Scan.inOrder, if_pos hcomplete]

/-- No order of arrival gives another snapshot. -/
theorem eq_of_mem_snapshotOn (h : Config.resolve s changes env = .ok config)
    (hfound : (Discovery.run world config.strategy).1 = .ok names)
    {schedule : List String → List ℕ} {answer : Except Error (List String)}
    (hanswer : answer ∈ (snapshotOn schedule world config).1) :
    answer = .ok (names.flatMap (block world config)) := by
  obtain ⟨n, -, hlimit⟩ := exists_ofNumber?_of_resolve h
  rw [snapshotOn_fst hlimit hfound] at hanswer
  split at hanswer
  · exact (Option.some.inj hanswer).symm
  · exact absurd hanswer (Option.not_mem_none _)

end Source

/-! ### Runs -/

/-- The world as a client sees it. -/
def World.through (world : World) (client : Client) : World :=
  { world with fetch := client.fetch world.fetch }

namespace CommandLine

variable {s : Surroundings} {store : Settings.Store} {options : RunOptions} {config : Config}
  {client : Client} {world : World} {entries : List String}

theorem mapError_eq_ok_iff {ε ε' α : Type} {f : ε → ε'} {x : Except ε α} {a : α} :
    x.mapError f = .ok a ↔ x = .ok a := by
  cases x <;> simp [Except.mapError]

/-- A snapshot is taken with a configuration that has been accepted. -/
theorem exists_resolve_of_prepare {env : Environment} {settings : Settings}
    (h : prepare env settings options = .ok (config, client)) :
    ∃ changes, Config.resolve settings changes env = .ok config := by
  obtain ⟨changes, -, h⟩ := Config.bind_eq_ok.1 h
  obtain ⟨resolved, hresolved, h⟩ := Config.bind_eq_ok.1 h
  obtain ⟨rules, -, h⟩ := Config.bind_eq_ok.1 h
  cases h
  exact ⟨changes, mapError_eq_ok_iff.1 hresolved⟩

/-- Why a run takes no snapshot: there is nothing to take it with, or it is given up. -/
inductive Refused (s : Surroundings) (store : Settings.Store) (options : RunOptions) :
    SnapshotError → Prop
  | unprepared {e : SnapshotError} (h : prepare s.environment store.load options = .error e) :
      Refused s store options e
  | abandoned {config : Config} {client : Client} {e : Source.Error}
      (hready : prepare s.environment store.load options = .ok (config, client))
      (h : (Source.snapshot (s.world.through client) config).1 = some (.error e)) :
      Refused s store options (.source e)

/-- A run takes a snapshot with some configuration, in the world that its client sees. -/
structure Taken (s : Surroundings) (store : Settings.Store) (options : RunOptions) (config : Config)
    (world : World) (entries : List String) : Prop where
  exists_client : ∃ client, prepare s.environment store.load options = .ok (config, client) ∧
    world = s.world.through client
  answer : (Source.snapshot world config).1 = some (.ok entries)
  /-- The order in which pages arrive makes no difference. -/
  agreed : ∀ schedule, ∀ a ∈ (Source.snapshotOn schedule world config).1, a = .ok entries

/-- An output tells all of a snapshot. -/
structure Told (config : Config) (world : World) (entries : List String) (output : String) :
    Prop where
  /-- It is the entries, each with a line feed behind it. -/
  output_eq : output = String.join (entries.map fun entry ↦ entry ++ "\n")
  /-- No entry has a line feed. -/
  lineFeed_notMem : ∀ entry ∈ entries, '\n' ∉ entry.toList
  /-- The entries are its lines. -/
  lines_eq : Text.lines output = entries
  /-- The base in front of its lines gives the addresses of all files below the base. -/
  addresses : ∃ names, (Discovery.run world config.strategy).1 = .ok names ∧
    (Text.lines output).map (Assembly.withSlash config.packageBase ++ ·) =
      ((names.map (Scan.files world (Source.scanOptions config))).flatten.map Artifact.url).filter
        (Assembly.Below (Assembly.withSlash config.packageBase) ·)

/-- A run that takes a snapshot ends with an exit code, and with all of the snapshot or with nothing
on its output. -/
inductive Delivery (s : Surroundings) (store : Settings.Store) (options : RunOptions) :
    (exitCode : ℕ) → (output : String) → Prop
  | nothing {e : SnapshotError} (h : Refused s store options e) : Delivery s store options 1 ""
  | whole {config : Config} {world : World} {entries : List String} {output : String}
      (htaken : Taken s store options config world entries)
      (htold : Told config world entries output) : Delivery s store options 0 output

/-- The log is not on the output. -/
theorem Report.output_eq (r : Report) (console : Log.Console) (clock : String) :
    r.output console clock = r.stdout := by
  rw [Report.output, Log.Console.written_output, String.empty_append]

theorem takeSnapshot_of_error {e : Source.Error}
    (hready : prepare s.environment store.load options = .ok (config, client))
    (h : (Source.snapshot (s.world.through client) config).1 = some (.error e)) :
    (takeSnapshot s store options).exitCode = 1 ∧ (takeSnapshot s store options).stdout = "" := by
  obtain ⟨happened, hsnapshot⟩ : ∃ happened, Source.snapshot (s.world.through client) config =
      (some (.error e), happened) := ⟨_, Prod.ext h rfl⟩
  rw [World.through] at hsnapshot
  simp [takeSnapshot, hready, hsnapshot, Report.failed]

theorem takeSnapshot_of_ok
    (hready : prepare s.environment store.load options = .ok (config, client))
    (h : (Source.snapshot (s.world.through client) config).1 = some (.ok entries)) :
    (takeSnapshot s store options).exitCode = 0 ∧
      (takeSnapshot s store options).stdout = asLines entries := by
  obtain ⟨happened, hsnapshot⟩ : ∃ happened, Source.snapshot (s.world.through client) config =
      (some (.ok entries), happened) := ⟨_, Prod.ext h rfl⟩
  rw [World.through] at hsnapshot
  simp [takeSnapshot, hready, hsnapshot, Report.done]

/-- A snapshot is told by its lines. -/
theorem told_asLines {names : List String}
    (hfound : (Discovery.run world config.strategy).1 = .ok names) :
    Told config world (names.flatMap (Source.block world config))
      (asLines (names.flatMap (Source.block world config))) := by
  have hclear : ∀ entry ∈ names.flatMap (Source.block world config), '\n' ∉ entry.toList :=
    fun entry hmem ↦ (Source.isClear_of_mem_blocks hmem).lineFeed_notMem
  have hlines : Text.lines (asLines (names.flatMap (Source.block world config))) =
      names.flatMap (Source.block world config) := Text.lines_join hclear
  refine ⟨rfl, hclear, hlines, names, hfound, ?_⟩
  rw [hlines]
  exact Source.map_append_blocks world config names

/-- **The output of a run that takes a snapshot is the snapshot or nothing**, whatever the settings
file, the options, the environment and the world are, and whatever is logged meanwhile. -/
theorem delivery_takeSnapshot (s : Surroundings) (store : Settings.Store) (options : RunOptions)
    (console : Log.Console) (clock : String) :
    Delivery s store options (takeSnapshot s store options).exitCode
      ((takeSnapshot s store options).output console clock) := by
  rw [Report.output_eq]
  cases hready : prepare s.environment store.load options with
  | error e =>
    rw [takeSnapshot, hready]
    exact .nothing (.unprepared hready)
  | ok ready =>
    obtain ⟨config, client⟩ := ready
    obtain ⟨changes, hresolve⟩ := exists_resolve_of_prepare hready
    cases hfound : (Discovery.run (s.world.through client) config.strategy).1 with
    | error e =>
      have hanswer : (Source.snapshot (s.world.through client) config).1 =
          some (.error (.discovery e)) :=
        congrArg Prod.fst (Source.snapshotOn_of_error hfound Scan.inOrder)
      obtain ⟨hcode, hstdout⟩ := takeSnapshot_of_error hready hanswer
      rw [hcode, hstdout]
      exact .nothing (.abandoned hready hanswer)
    | ok names =>
      have hanswer := Source.snapshot_of_found hresolve hfound
      obtain ⟨hcode, hstdout⟩ := takeSnapshot_of_ok hready hanswer
      rw [hcode, hstdout]
      refine .whole ⟨⟨client, hready, rfl⟩, hanswer, fun schedule a ha ↦ ?_⟩ (told_asLines hfound)
      exact Source.eq_of_mem_snapshotOn hresolve hfound ha

/-- A package that is named twice is told twice, and one whose page is missing not at all. -/
example : (takeSnapshot ⟨.ofList [], Source.sampleWorld, .ofHome ""⟩ none
    { simpleBase := some "https://host/simple",
      packageBase := some "https://host/packages" }).output
      {} "12:00:00" = "f/foo-1.0.tar.gz\nf/foo-1.0.tar.gz\n" := by
  decide +kernel

end CommandLine

end IndexSnapshot
