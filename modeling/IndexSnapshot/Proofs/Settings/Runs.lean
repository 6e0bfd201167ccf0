import IndexSnapshot.Proofs.Settings.Write

/-!
# Settings over time

Settings are read, set and given their defaults again in any order, beginning without a file. As
long as the numbers are integers of the exact range, nothing is ever lost between writing and
reading: what is read is, for each setting, the last value that it was given since all had their
defaults, and the default if there is none (`member?_read_run`).
-/

namespace IndexSnapshot.Settings

open Text (Encoded)

/-- What can be done with the settings, names and texts being strings of a type. A value may be
missing. -/
inductive Step (τ : Type) where
  | get
  | set (name : τ) (value : Option (Json τ))
  | reset

variable {τ : Type} [DecidableEq τ] [Encoded τ]

namespace Step

/-- The file after a step. It stays as it is when a value is refused. -/
def apply (store : Store) : Step τ → Store
  | get => store
  | set name value =>
    match store.set name value with
    | .ok store' => store'
    | .error _ => store
  | reset => Store.reset

/-- The step gives all settings their defaults. -/
def isReset : Step τ → Bool
  | get => false
  | set _ _ => false
  | reset => true

/-- If the step sets a number, it is an integer of the exact range. -/
def IsTame (step : Step τ) : Prop :=
  ∀ name n, step = set name (some (.number n)) → n.IsSafeInteger

/-- The value that the step gives a setting: it has the name of the setting and a value of its
kind. -/
def gives? (key : SettingKey) : Step τ → Option (SettingValue τ)
  | set name value =>
    if name = Encoded.ofString key.name ∧ value.bind Json.kind? = some key.kind then
      value.bind SettingValue.ofJson?
    else none
  | _ => none

end Step

/-- The file after steps one after the other. -/
def run (store : Store) (steps : List (Step τ)) : Store := steps.foldl Step.apply store

/-- The last value that a setting was given since all settings had their defaults. -/
def lastGiven? (steps : List (Step τ)) (key : SettingKey) : Option (SettingValue τ) :=
  (steps.reverse.takeWhile fun step ↦ !step.isReset).findSome? (Step.gives? key)

/-- Nothing is lost of the settings when they are written. -/
def IsKept (s : Settings Utf16) : Prop := ∀ key, ∀ v ∈ s.get? key, v.kept? = some v

theorem isKept_defaults : defaults.IsKept := fun _ _ ↦ kept?_of_get?_defaults

/-- Settings of which nothing is lost are what they are without the defaults behind them. -/
theorem IsKept.get?_eq {s : Settings Utf16} (h : s.IsKept) (key : SettingKey) :
    ((s.get? key).bind SettingValue.kept?).or (defaults.get? key) = s.get? key := by
  cases hv : s.get? key with
  | some v => rw [Option.bind_some, h key v hv, Option.some_or]
  | none =>
    obtain rfl := eq_keepRecent_of_get? hv
    rfl

variable {store : Store} {steps : List (Step τ)} {step : Step τ} {key : SettingKey}
  {v : SettingValue τ}

/-! ### One step -/

theorem Step.gives?_eq_some_iff : step.gives? key = some v ↔
    step = set (Encoded.ofString key.name) (some v.toJson) ∧ v.kind = key.kind := by
  constructor
  · intro h
    cases step with
    | get | reset => cases h
    | set name value =>
      simp only [gives?] at h
      split at h
      · rename_i hfits
        obtain ⟨rfl, hkind⟩ := hfits
        obtain ⟨json, rfl, hv⟩ := Option.bind_eq_some_iff.1 h
        rw [SettingValue.ofJson?_eq_some_iff] at hv
        subst hv
        obtain ⟨w, hw, hkey⟩ := SettingValue.kind?_eq_some_iff.1 hkind
        exact ⟨rfl, SettingValue.toJson_injective hw ▸ hkey⟩
      · cases h
  · rintro ⟨rfl, hkind⟩
    have hfits : (some v.toJson).bind Json.kind? = some key.kind :=
      SettingValue.kind?_eq_some_iff.2 ⟨v, rfl, hkind⟩
    rw [gives?, if_pos ⟨rfl, hfits⟩, Option.bind_some, SettingValue.ofJson?_eq_some_iff]

/-- A refused value gives nothing to any setting. -/
theorem Step.gives?_of_error {name : τ} {value : Option (Json τ)} {e : Store.SetError τ}
    (h : store.set name value = .error e) : (set name value).gives? key = none := by
  rw [Option.eq_none_iff_forall_not_mem]
  intro v hv
  obtain ⟨heq, hkind⟩ := gives?_eq_some_iff.1 hv
  obtain ⟨rfl, rfl⟩ := set.inj heq
  exact Store.set_eq_error_iff.1 ⟨e, h⟩ key (SettingKey.ofName?_name key)
    (SettingValue.kind?_eq_some_iff.2 ⟨v, rfl, hkind⟩)

/-- A value of the right kind is given to its setting and to no other. -/
theorem Step.gives?_set {given : SettingKey} (hkind : v.kind = given.kind) (key : SettingKey) :
    (set (Encoded.ofString given.name) (some v.toJson)).gives? key =
      if key = given then some v else none := by
  split_ifs with hkey
  · subst hkey
    exact gives?_eq_some_iff.2 ⟨rfl, hkind⟩
  · rw [gives?, if_neg fun h ↦ hkey (SettingKey.eq_of_name_eq h.1.symm)]

/-- Nothing is lost of the values that tame steps give. -/
theorem Step.IsTame.isSound_and_kept? (h : step.IsTame) (hv : step.gives? key = some v) :
    v.IsSound ∧ v.kept? = some v := by
  obtain ⟨rfl, -⟩ := gives?_eq_some_iff.1 hv
  cases v with
  | text s | flag b => exact ⟨nofun, rfl⟩
  | number n =>
    have hsafe := h _ n rfl
    refine ⟨fun m hm ↦ SettingValue.number.inj hm ▸ hsafe.isFormat, ?_⟩
    obtain ⟨k, -, rfl⟩ := hsafe
    rfl

/-- **What is read after a step**: the defaults when they were asked for, or else the value that the
step gives and otherwise the one before. -/
theorem get?_read_apply (hstep : step.IsTame) (h : store.read.IsKept) (key : SettingKey) :
    (step.apply store).read.get? key =
      if step.isReset then defaults.get? key
      else ((step.gives? key).map SettingValue.units).or (store.read.get? key) := by
  cases step with
  | get => rfl
  | reset =>
    rw [Step.apply, Store.reset, get?_read_ofSettings isSound_defaults, isKept_defaults.get?_eq]
    rfl
  | set name value =>
    rw [Step.isReset, if_neg Bool.false_ne_true, Step.apply]
    cases hset : store.set name value with
    | error e => rw [Step.gives?_of_error hset, Option.map_none, Option.none_or]
    | ok store' =>
      obtain ⟨given, v, hname, rfl, hkind, rfl⟩ := Store.set_eq_ok_iff.1 hset
      rw [SettingKey.ofName?_eq_some_iff] at hname
      subst hname
      have hgives := Step.gives?_set hkind
      obtain ⟨hsound, hkept⟩ := hstep.isSound_and_kept? ((hgives given).trans (if_pos rfl))
      have hkept' : v.units.kept? = some v.units := by rw [v.kept?_units, hkept, Option.map_some]
      dsimp only
      rw [Store.get?_read_overlay (SettingValue.isSound_units hsound) (v.kind_units.trans hkind),
        hgives]
      split_ifs
      · rw [Option.bind_some, hkept', Option.some_or, Option.map_some, Option.some_or]
      · rw [h.get?_eq, Option.map_none, Option.none_or]

/-- A tame step gives nothing that would be lost. -/
theorem isKept_read_apply (hstep : step.IsTame) (h : store.read.IsKept) :
    (step.apply store).read.IsKept := by
  intro key v hv
  rw [Option.mem_def, get?_read_apply hstep h] at hv
  split at hv
  · exact isKept_defaults key v hv
  · rcases Option.or_eq_some_iff.1 hv with hgives | ⟨-, hbefore⟩
    · obtain ⟨w, hw, rfl⟩ := Option.map_eq_some_iff.1 hgives
      rw [w.kept?_units, (hstep.isSound_and_kept? hw).2, Option.map_some]
    · exact h key v hbefore

/-! ### Runs -/

theorem run_append_singleton : run store (steps ++ [step]) = step.apply (run store steps) := by
  rw [run, List.foldl_append]
  rfl

theorem lastGiven?_append_singleton : lastGiven? (steps ++ [step]) key =
    if step.isReset then none else (step.gives? key).or (lastGiven? steps key) := by
  rw [lastGiven?, List.reverse_append, List.reverse_singleton, List.singleton_append,
    List.takeWhile_cons]
  cases hreset : step.isReset with
  | true => rfl
  | false =>
    simp only [Bool.not_false, if_true, List.findSome?_cons, Bool.false_eq_true, if_false]
    cases step.gives? key <;> rfl

/-- **What is read after a run** is the last value given since the settings had their defaults, or
the default. -/
theorem get?_read_run (hsteps : ∀ step ∈ steps, step.IsTame) : (run none steps).read.IsKept ∧
    ∀ key, (run none steps).read.get? key =
      ((lastGiven? steps key).map SettingValue.units).or (defaults.get? key) := by
  induction steps using List.reverseRecOn with
  | nil => exact ⟨isKept_defaults, fun _ ↦ rfl⟩
  | append_singleton steps step ih =>
    have hstep := hsteps step (by simp)
    obtain ⟨hkept, hget⟩ := ih fun step hmem ↦ hsteps step (List.mem_append_left _ hmem)
    rw [run_append_singleton]
    refine ⟨isKept_read_apply hstep hkept, fun key ↦ ?_⟩
    rw [get?_read_apply hstep hkept, lastGiven?_append_singleton, hget]
    split
    · rfl
    · rw [Option.map_or, Option.or_assoc]

/-- **The settings are a store in which the last value counts.** At every point of a run there is
under the name of a setting the last value that it was given since all had their defaults, or else
its default, and under no other name anything. A value is refused exactly if no setting has its name
or the setting is of another kind, and then the file stays as it is. -/
theorem member?_read_run (hsteps : ∀ step ∈ steps, step.IsTame) {before : List (Step τ)}
    (hbefore : before <+: steps) :
    (∀ name, (run none before).read.toJson.member? name =
      (SettingKey.ofName? name).bind fun key ↦
        (((lastGiven? before key).map SettingValue.units).or (defaults.get? key)).map
          SettingValue.toJson) ∧
    ∀ (name : τ) (value : Option (Json τ)),
      ((∃ e, (run none before).set name value = .error e) ↔
        ∀ key, SettingKey.ofName? name = some key → value.bind Json.kind? ≠ some key.kind) ∧
      ((∃ e, (run none before).set name value = .error e) →
        run none (before ++ [.set name value]) = run none before) := by
  obtain ⟨-, hget⟩ := get?_read_run fun step hmem ↦ hsteps step (hbefore.subset hmem)
  refine ⟨fun name ↦ ?_, fun name value ↦ ⟨Store.set_eq_error_iff, ?_⟩⟩
  · simp only [member?_toJson, hget]
  · rintro ⟨e, he⟩
    rw [run_append_singleton, Step.apply, he]

/-- A run with refused values before and after the settings have had their defaults again. The last
name of a level is half of a surrogate pair. -/
def sampleSteps : List (Step Utf16) :=
  [.set (Encoded.ofString "keepRecent") (some (.number (.finite (5 * Binary64.one)))),
    .set (Encoded.ofString "keepRecent") (some (.string (Encoded.ofString "many"))), .get, .reset,
    .set (Encoded.ofString "logLevel") (some (.string (Encoded.ofString "debug"))),
    .set (Encoded.ofString "mirror") (some (.string (Encoded.ofString "x"))),
    .set (Encoded.ofString "logLevel") (some (.string [0xd800]))]

theorem member?_read_run_sampleSteps :
    (∀ step ∈ sampleSteps, step.IsTame) ∧ sampleSteps.take 3 <+: sampleSteps ∧
    (run none (sampleSteps.take 3)).read.toJson.member? (Encoded.ofString "keepRecent") =
      some (.number (.finite (5 * Binary64.one))) ∧
    (run none sampleSteps).read.toJson.member? (Encoded.ofString "keepRecent") = none ∧
    (run none sampleSteps).read.toJson.member? (Encoded.ofString "logLevel") =
      some (.string [0xd800]) ∧
    (run none sampleSteps).read.toJson.member? (Encoded.ofString "mirror") = none ∧
    run none (sampleSteps ++ [.set (Encoded.ofString "debug") (some .null)]) =
      run none sampleSteps := by
  have htame : ∀ step ∈ sampleSteps, step.IsTame := by
    rintro _ hstep name n rfl
    have hn : n = .finite (5 * Binary64.one) := by
      simp only [sampleSteps, List.mem_cons, Step.set.injEq, Option.some.injEq, Json.number.injEq,
        reduceCtorEq, and_false, or_false, List.not_mem_nil] at hstep
      exact hstep.2
    exact ⟨5, by decide, hn⟩
  have hbefore : sampleSteps.take 3 <+: sampleSteps := List.take_prefix 3 sampleSteps
  obtain ⟨hearly, -⟩ := member?_read_run htame hbefore
  obtain ⟨hlate, hset⟩ := member?_read_run htame (List.prefix_refl sampleSteps)
  have hearly := fun key ↦ (hearly (Encoded.ofString (SettingKey.name key))).trans
    (by rw [SettingKey.ofName?_name])
  have hlate' := fun key ↦ (hlate (Encoded.ofString (SettingKey.name key))).trans
    (by rw [SettingKey.ofName?_name])
  refine ⟨htame, hbefore, (hearly .keepRecent).trans ?_, (hlate' .keepRecent).trans ?_,
    (hlate' .logLevel).trans ?_, (hlate (Encoded.ofString "mirror")).trans ?_, ?_⟩
  · have hgiven : lastGiven? (sampleSteps.take 3) .keepRecent =
        some (.number (.finite (5 * Binary64.one))) := by decide +kernel
    rw [Option.bind_some, hgiven]
    rfl
  · have hgiven : lastGiven? sampleSteps .keepRecent = none := by decide +kernel
    rw [Option.bind_some, hgiven]
    rfl
  · have hgiven : lastGiven? sampleSteps .logLevel = some (.text [0xd800]) := by decide +kernel
    rw [Option.bind_some, hgiven]
    rfl
  · have hname : SettingKey.ofName? (Encoded.ofString "mirror" : Utf16) = none := by
      decide +kernel
    rw [hname, Option.bind_none]
  · obtain ⟨hrefused, hstays⟩ := hset (Encoded.ofString "debug") (some .null)
    exact hstays (hrefused.2 fun _ _ ↦ nofun)

end IndexSnapshot.Settings
