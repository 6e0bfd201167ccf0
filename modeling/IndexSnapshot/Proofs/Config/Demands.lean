import IndexSnapshot.Proofs.Config.Accepted
import IndexSnapshot.Proofs.Number.Whole
import IndexSnapshot.Proofs.Settings.Given
import IndexSnapshot.Proofs.Url.Trailing

/-!
# What is demanded of settings

Settings make a configuration exactly if they meet a list of demands, and otherwise the complaint is
that about the first one they do not meet (`error?_ofSettings`). The address of the index loses the
slashes at its end; what is left is still the address of a page of the web with the same owner, and
settings that have it instead make the same configuration (`resolve_ofPairs`).
-/

namespace IndexSnapshot

variable {s : Settings} {env : Environment} {config : Config}

/-- The number is a positive integer. -/
def Binary64.IsCount (x : Binary64) : Prop := ∃ n : ℕ, 0 < n ∧ x.toInt? = some (n : ℤ)

theorem Binary64.isPositive_finite_iff {units : ℤ} : (finite units).isPositive = true ↔ 0 < units :=
  decide_eq_true_iff

theorem Binary64.isPositiveInteger_iff {x : Binary64} : x.isPositiveInteger = true ↔ x.IsCount := by
  constructor
  · exact exists_toInt?_of_isPositiveInteger
  · rintro ⟨n, hn, hx⟩
    have hinteger : x.isInteger = true := by
      rw [isInteger, hx]
      rfl
    rcases toInt?_eq_some hx with rfl | ⟨rfl, rfl⟩
    · have hunits : 0 < (n : ℤ) * one :=
        Int.mul_pos (Int.natCast_pos.2 hn) (Int.natCast_pos.2 one_pos)
      rw [isPositiveInteger, hinteger, Bool.true_and, isPositive_finite_iff]
      exact hunits
    · exact absurd hn (Nat.lt_irrefl 0)

namespace Config

/-! ### Demands -/

/-- A demand: whether it is met, and the complaint if it is not. -/
structure Demand where
  isMet : Bool
  complaint : Error

/-- The demands on an address: it can be read, and it is that of a page of the web. -/
def onAddress (key : SettingKey) (value : String) : List Demand :=
  [⟨(Url.parse? none value).isSome, .notUrl key value⟩,
    ⟨(Url.parse? none value).any Url.isWeb, .notWeb key value⟩]

/-- The demand on a number: it is a positive integer. -/
def onCount (key : SettingKey) (value : Binary64) : Demand :=
  ⟨value.isPositiveInteger, .notPositiveInteger key value⟩

/-- The demand on the environment of a query: it names a project. -/
def onProject (env : Environment) : Demand := ⟨(env.get? "PROJECT_ID").isSome, .noProject⟩

/-- What is demanded of settings in an environment, in the order in which it is looked at. -/
def demands (s : Settings) (env : Environment) : List Demand :=
  onAddress .simpleBase s.simpleBase ++ (onAddress .packageBase s.packageBase ++
    ([onCount .concurrentResolve s.concurrentResolve] ++
      ([onCount .requestTimeout s.requestTimeout] ++
        (s.keepRecent.toList.map (onCount .keepRecent) ++
          if s.bqQuery then [onProject env] else []))))

/-- The complaint about the first demand that is not met. -/
def firstComplaint? (demands : List Demand) : Option Error :=
  (demands.find? fun d ↦ !d.isMet).map Demand.complaint

/-- Why a check fails, if it does. -/
def error? {α : Type} : Except Error α → Option Error
  | .ok _ => none
  | .error e => some e

theorem error?_eq_some_iff {α : Type} {x : Except Error α} {e : Error} :
    error? x = some e ↔ x = .error e := by
  cases x <;> simp [error?]

theorem error?_eq_none_iff {α : Type} {x : Except Error α} : error? x = none ↔ ∃ a, x = .ok a := by
  cases x <;> simp [error?]

theorem firstComplaint?_append (before after : List Demand) :
    firstComplaint? (before ++ after) = (firstComplaint? before).or (firstComplaint? after) := by
  rw [firstComplaint?, List.find?_append, Option.map_or]
  rfl

theorem firstComplaint?_eq_none_iff {demands : List Demand} :
    firstComplaint? demands = none ↔ ∀ d ∈ demands, d.isMet = true := by
  simp [firstComplaint?]

/-- Checks one after the other are demands one after the other. -/
theorem error?_bind {α β : Type} {x : Except Error α} {f : α → Except Error β}
    {before after : List Demand} (hx : error? x = firstComplaint? before)
    (hf : ∀ a, error? (f a) = firstComplaint? after) :
    error? (x >>= f) = firstComplaint? (before ++ after) := by
  rw [firstComplaint?_append, ← hx]
  cases x with
  | error e => rfl
  | ok a => exact hf a

theorem error?_checkUrl (key : SettingKey) (value : String) :
    error? (checkUrl key value) = firstComplaint? (onAddress key value) := by
  rw [checkUrl, onAddress]
  cases hurl : Url.parse? none value with
  | none => rfl
  | some url => cases hweb : url.isWeb <;> simp [error?, firstComplaint?, hweb]

theorem error?_checkCount (key : SettingKey) (value : Binary64) :
    error? (checkCount key value) = firstComplaint? [onCount key value] := by
  rw [checkCount, onCount]
  cases hcount : value.isPositiveInteger <;> simp [error?, firstComplaint?]

theorem error?_chooseStrategy (s : Settings) (env : Environment) :
    error? (chooseStrategy s env) =
      firstComplaint? (if s.bqQuery then [onProject env] else []) := by
  rw [chooseStrategy]
  cases s.bqQuery with
  | false => rfl
  | true =>
    rw [if_pos rfl, if_pos rfl, projectId, Discovery.projectId?, onProject]
    cases env.get? "PROJECT_ID" <;> rfl

/-- **The complaint about settings is that about the first demand they do not meet.** -/
theorem error?_ofSettings (s : Settings) (env : Environment) :
    error? (ofSettings s env) = firstComplaint? (demands s env) := by
  have hstrategy : ∀ f : Discovery.Strategy → Config,
      error? (do let strategy ← chooseStrategy s env; pure (f strategy)) =
        firstComplaint? (if s.bqQuery then [onProject env] else []) := fun f ↦ by
    rw [← List.append_nil (if s.bqQuery then _ else _)]
    exact error?_bind (error?_chooseStrategy s env) fun _ ↦ rfl
  rw [ofSettings, demands]
  refine error?_bind (error?_checkUrl _ _) fun _ ↦ error?_bind (error?_checkUrl _ _) fun _ ↦
    error?_bind (error?_checkCount _ _) fun _ ↦ error?_bind (error?_checkCount _ _) fun _ ↦ ?_
  cases s.keepRecent with
  | none => exact hstrategy _
  | some n => exact error?_bind (error?_checkCount _ _) fun _ ↦ hstrategy _

/-! ### Settings that will do -/

/-- The text is the address of a page of the web. -/
def IsWebAddress (value : String) : Prop :=
  ∃ url, Url.parse? none value = some url ∧ url.isWeb = true

/-- Settings that a run can be made with in an environment. -/
structure IsSuitable (s : Settings) (env : Environment) : Prop where
  simpleBase : IsWebAddress s.simpleBase
  packageBase : IsWebAddress s.packageBase
  concurrentResolve : s.concurrentResolve.IsCount
  requestTimeout : s.requestTimeout.IsCount
  keepRecent : ∀ n ∈ s.keepRecent, n.IsCount
  project : s.bqQuery = true → ∃ project, env "PROJECT_ID" = some project ∧ project ≠ ""

theorem forall_onAddress {key : SettingKey} {value : String} :
    (∀ d ∈ onAddress key value, d.isMet = true) ↔ IsWebAddress value := by
  rw [IsWebAddress, onAddress]
  cases hurl : Url.parse? none value <;> simp

theorem isMet_onProject : (onProject env).isMet = true ↔
    ∃ project, env "PROJECT_ID" = some project ∧ project ≠ "" := by
  rw [onProject, Environment.get?]
  cases env "PROJECT_ID" with
  | none => simp
  | some project => by_cases h : project = "" <;> simp [h]

/-- Suitable settings are those that meet all demands. -/
theorem isSuitable_iff : IsSuitable s env ↔ ∀ d ∈ demands s env, d.isMet = true := by
  have hproject : (∀ d ∈ if s.bqQuery then [onProject env] else [], d.isMet = true) ↔
      (s.bqQuery = true → ∃ project, env "PROJECT_ID" = some project ∧ project ≠ "") := by
    rw [← isMet_onProject]
    cases s.bqQuery <;> simp
  have hkeep : (∀ d ∈ s.keepRecent.toList.map (onCount .keepRecent), d.isMet = true) ↔
      ∀ n ∈ s.keepRecent, n.IsCount := by
    simp only [List.forall_mem_map, Option.mem_toList, onCount, Binary64.isPositiveInteger_iff]
    rfl
  simp only [demands, List.forall_mem_append, forall_onAddress, List.forall_mem_singleton, hproject,
    hkeep]
  simp only [onCount, Binary64.isPositiveInteger_iff]
  exact ⟨fun h ↦ ⟨h.1, h.2, h.3, h.4, h.5, h.6⟩, fun ⟨h₁, h₂, h₃, h₄, h₅, h₆⟩ ↦
    ⟨h₁, h₂, h₃, h₄, h₅, h₆⟩⟩

theorem exists_ofSettings_iff : (∃ config, ofSettings s env = .ok config) ↔ IsSuitable s env := by
  rw [← error?_eq_none_iff, error?_ofSettings, firstComplaint?_eq_none_iff, isSuitable_iff]

theorem ofSettings_eq_error_iff {e : Error} :
    ofSettings s env = .error e ↔ firstComplaint? (demands s env) = some e := by
  rw [← error?_eq_some_iff, error?_ofSettings]

/-! ### The address of the index -/

theorem toList_dropSlashes (base : String) :
    (dropSlashes base).toList = base.toList.rdropWhile (· = '/') := String.toList_ofList

theorem getLast?_dropSlashes (base : String) : (dropSlashes base).toList.getLast? ≠ some '/' := by
  intro hlast
  have hne : base.toList.rdropWhile (· = '/') ≠ [] := by
    rintro hnil
    rw [toList_dropSlashes, hnil] at hlast
    cases hlast
  rw [toList_dropSlashes, List.getLast?_eq_some_getLast hne] at hlast
  exact List.rdropWhile_last_not _ _ hne (decide_eq_true (Option.some.inj hlast))

theorem dropSlashes_dropSlashes (base : String) :
    dropSlashes (dropSlashes base) = dropSlashes base := by
  rw [← String.toList_inj, toList_dropSlashes, toList_dropSlashes, List.rdropWhile_idempotent]

/-- The address without the slashes at its end is that of a page of the web with the same owner. -/
theorem exists_parse?_dropSlashes {base : String} {url : Url} (h : Url.parse? none base = some url)
    (hweb : url.isWeb = true) : ∃ url', Url.parse? none (dropSlashes base) = some url' ∧
      url'.isWeb = true ∧ url'.scheme = url.scheme ∧ url'.authority = url.authority := by
  have hsplit : base =
      String.ofList ((dropSlashes base).toList ++ base.toList.rtakeWhile (· = '/')) := by
    rw [toList_dropSlashes, List.rdropWhile_append_rtakeWhile, String.ofList_toList]
  have hslashes : ∀ c ∈ base.toList.rtakeWhile (· = '/'), c = '/' := fun c hc ↦ by
    simpa using List.mem_rtakeWhile_imp hc
  rw [hsplit] at h
  obtain ⟨url', hurl', hscheme, hauthority⟩ := Url.exists_parse?_of_append_slashes hslashes h hweb
  rw [String.ofList_toList] at hurl'
  refine ⟨url', hurl', ?_, hscheme, hauthority⟩
  rw [Url.isWeb, hscheme]
  exact hweb

/-- Settings with the address of the index as it is used make the same configuration. -/
theorem ofSettings_dropSlashes (h : ofSettings s env = .ok config) :
    ofSettings { s with simpleBase := dropSlashes s.simpleBase } env = .ok config := by
  obtain ⟨url, hurl, hweb⟩ := (exists_ofSettings_iff.1 ⟨config, h⟩).simpleBase
  obtain ⟨url', hurl', hweb', -⟩ := exists_parse?_dropSlashes hurl hweb
  have hcheck : checkUrl .simpleBase (dropSlashes s.simpleBase) = .ok () := by
    rw [checkUrl, hurl']
    exact if_pos hweb'
  have hstrategy : chooseStrategy { s with simpleBase := dropSlashes s.simpleBase } env =
      chooseStrategy s env := by
    rw [chooseStrategy, chooseStrategy, dropSlashes_dropSlashes]
  obtain ⟨⟨⟩, -, hrest⟩ := bind_eq_ok.1 h
  rw [ofSettings]
  simp only [hcheck, hstrategy, dropSlashes_dropSlashes]
  exact hrest

theorem get?_simpleBase (s : Settings) (base : String) (key : SettingKey) :
    Settings.get? { s with simpleBase := base } key =
      if key = .simpleBase then some (.text base) else s.get? key := by
  cases key <;> rfl

/-- One more address of the index is given in the end. -/
theorem overlay_append_simpleBase (s : Settings) (pairs : List (String × Json)) (base : String) :
    s.overlay (Settings.changes (Json.ofPairs (pairs ++ [("simpleBase", .string base)]))) =
      { s.overlay (Settings.changes (Json.ofPairs pairs)) with simpleBase := base } := by
  refine Settings.ext_get? fun key ↦ ?_
  refine Eq.trans ?_
    (get?_simpleBase (s.overlay (Settings.changes (Json.ofPairs pairs))) base key).symm
  rw [Settings.get?_overlay_ofPairs, Settings.get?_overlay_ofPairs, Json.lastValue?,
    List.reverse_append, List.reverse_singleton, List.singleton_append, List.lookup_cons]
  by_cases hkey : key = .simpleBase
  · subst hkey
    rfl
  · have hname : (Text.Encoded.ofString key.name : String) ≠ "simpleBase" := fun hname ↦
      hkey (SettingKey.eq_of_name_eq hname)
    rw [beq_eq_false_iff_ne.2 hname, if_neg hkey]
    rfl

/-! ### Settings with changes -/

/-- **Settings with changes for one run make a configuration exactly if they are suitable**, and
otherwise the complaint is that about the first demand they do not meet. A change counts if it is of
the kind of its setting, whatever the others are. The address of the index is used without the
slashes at its end; it is still the address of a page of the web, with the scheme and the owner that
it had, the whole index is found there, and settings that have it instead make the same
configuration. -/
theorem resolve_ofPairs (s : Settings) (pairs : List (String × Json)) (env : Environment) :
    ∃ merged : Settings,
      (∀ key, merged.get? key =
        ((Json.lastValue? pairs key.name).bind (Settings.valueFor? key)).or (s.get? key)) ∧
      ((∃ config, resolve s (Settings.changes (Json.ofPairs pairs)) env = .ok config) ↔
        IsSuitable merged env) ∧
      (∀ e, resolve s (Settings.changes (Json.ofPairs pairs)) env = .error e ↔
        firstComplaint? (demands merged env) = some e) ∧
      ∀ config, resolve s (Settings.changes (Json.ofPairs pairs)) env = .ok config →
        config.simpleBase.toList.getLast? ≠ some '/' ∧
        (∃ url url', Url.parse? none merged.simpleBase = some url ∧
          Url.parse? none config.simpleBase = some url' ∧ url'.isWeb = true ∧
          url'.scheme = url.scheme ∧ url'.authority = url.authority) ∧
        (merged.bqQuery = false → config.strategy = .fullIndex config.simpleBase merged.debug) ∧
        resolve { merged with simpleBase := config.simpleBase } [] env = .ok config ∧
        resolve s (Settings.changes (Json.ofPairs
          (pairs ++ [("simpleBase", .string config.simpleBase)]))) env = .ok config := by
  refine ⟨s.overlay (Settings.changes (Json.ofPairs pairs)), Settings.get?_overlay_ofPairs s pairs,
    exists_ofSettings_iff, fun e ↦ ofSettings_eq_error_iff, fun config h ↦ ?_⟩
  have haccepted := accepted_of_ofSettings h
  obtain ⟨url, hurl, hweb⟩ := (exists_ofSettings_iff.1 ⟨config, h⟩).simpleBase
  obtain ⟨url', hurl', hweb', hscheme, hauthority⟩ := exists_parse?_dropSlashes hurl hweb
  have hagain := ofSettings_dropSlashes h
  rw [haccepted.simpleBase_eq]
  refine ⟨getLast?_dropSlashes _, ⟨url, url', hurl, hurl', hweb', hscheme, hauthority⟩,
    fun hquery ↦ ?_, hagain, ?_⟩
  · have hchosen := haccepted.chooseStrategy_eq
    rw [chooseStrategy, hquery] at hchosen
    exact (Except.ok.inj hchosen).symm
  · rw [resolve, overlay_append_simpleBase]
    exact hagain

/-- Changes of which one is of the wrong kind. -/
def samplePairs : List (String × Json) :=
  [("simpleBase", .string "HTTP://user@mirror.example:/simple?//"), ("packageBase", .bool true),
    ("keepRecent", .number 3)]

/-- The configuration that they make of the defaults. -/
def sampleConfig : Config where
  simpleBase := "HTTP://user@mirror.example:/simple?"
  packageBase := Settings.defaults.packageBase
  strategy := .fullIndex "HTTP://user@mirror.example:/simple?" false
  retention := some ⟨3⟩
  concurrentResolve := 64
  requestTimeout := 30000

theorem resolve_ofPairs_sampleConfig :
    resolve .defaults (Settings.changes (Json.ofPairs samplePairs)) (.ofList []) =
      .ok sampleConfig ∧
      resolve .defaults (Settings.changes (Json.ofPairs
        (samplePairs ++ [("simpleBase", .string sampleConfig.simpleBase)]))) (.ofList []) =
          .ok sampleConfig := by
  have hresolve : resolve .defaults (Settings.changes (Json.ofPairs samplePairs)) (.ofList []) =
      .ok sampleConfig := by decide +kernel
  obtain ⟨merged, -, -, -, hconfig⟩ := resolve_ofPairs .defaults samplePairs (.ofList [])
  obtain ⟨-, -, -, -, hagain⟩ := hconfig sampleConfig hresolve
  exact ⟨hresolve, hagain⟩

end Config

end IndexSnapshot
