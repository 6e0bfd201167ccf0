import IndexSnapshot.Proofs.Settings.Store

/-!
# Setting one value

A value is taken exactly if its name is that of a setting and its kind the setting's
(`set_eq_error_iff`). What is read afterwards is the value under its name and what was read before
under every other, as long as JSON can write these values. Infinite numbers and what is no number
are taken as well, though JSON cannot write them, and are lost: the setting has its default again,
and so has every other setting whose value was such a number (`read_of_set`).
-/

namespace IndexSnapshot

open Text (Encoded)

variable {τ : Type}

/-- The kind of a JSON value, when it can be the value of a setting. -/
def Json.kind? : Json τ → Option Kind
  | .string _ => some .text
  | .number _ => some .number
  | .bool _ => some .flag
  | _ => none

namespace SettingValue

variable {v w : SettingValue τ} {default : Option (SettingValue τ)}

theorem ofJson?_eq_some_iff {value : Json τ} : ofJson? value = some v ↔ value = v.toJson := by
  constructor
  · intro h
    cases value <;> cases h <;> rfl
  · rintro rfl
    cases v <;> rfl

theorem toJson_injective (h : v.toJson = w.toJson) : v = w := by
  rw [← ofJson?_eq_some_iff, ofJson?_eq_some_iff.2 rfl] at h
  exact Option.some.inj h

theorem kind?_eq_some_iff {value : Json τ} {kind : Kind} :
    value.kind? = some kind ↔ ∃ v : SettingValue τ, value = v.toJson ∧ v.kind = kind := by
  constructor
  · intro h
    cases value with
    | string s => exact ⟨text s, rfl, Option.some.inj h⟩
    | number n => exact ⟨number n, rfl, Option.some.inj h⟩
    | bool b => exact ⟨flag b, rfl, Option.some.inj h⟩
    | null | array | object => cases h
  · rintro ⟨v, rfl, rfl⟩
    cases v <;> rfl

/-! ### Values that can be written -/

/-- JSON can write the value: if it is a number, it is a finite one. -/
def IsWritable (v : SettingValue τ) : Prop :=
  ∀ n, v = number n → n ≠ .nan ∧ ∀ negative, n ≠ .infinity negative

/-- The value without the sign that a zero may have. -/
def unsigned : SettingValue τ → SettingValue τ
  | number .negZero => number (.finite 0)
  | v => v

/-- Values are the same, or there is none on both sides. Zeros are the same whatever their sign, and
what is no number is not even the same as itself. -/
def IsSame (v w : Option (SettingValue τ)) : Prop :=
  v.map unsigned = w.map unsigned ∧ v ≠ some (number .nan)

theorem isSame_none : IsSame (none : Option (SettingValue τ)) none :=
  ⟨rfl, (Option.some_ne_none _).symm⟩

theorem isWritable_text (s : τ) : (text s).IsWritable := nofun

theorem isWritable_flag (b : Bool) : (flag b : SettingValue τ).IsWritable := nofun

theorem isWritable_number_iff {n : Binary64} :
    (number n : SettingValue τ).IsWritable ↔ n ≠ .nan ∧ ∀ negative, n ≠ .infinity negative :=
  ⟨fun h ↦ h n rfl, fun h _ heq ↦ number.inj heq ▸ h⟩

theorem isWritable_unsigned : v.unsigned.IsWritable ↔ v.IsWritable := by
  unfold unsigned
  split
  · exact iff_of_true (isWritable_number_iff.2 ⟨nofun, nofun⟩)
      (isWritable_number_iff.2 ⟨nofun, nofun⟩)
  · rfl

/-- Exactly the values that can be written leave something in the file. -/
theorem isWritable_iff_exists_kept? : v.IsWritable ↔ ∃ w, v.kept? = some w := by
  cases v with
  | text s => exact iff_of_true (isWritable_text s) ⟨_, rfl⟩
  | flag b => exact iff_of_true (isWritable_flag b) ⟨_, rfl⟩
  | number n =>
    rw [isWritable_number_iff]
    cases n with
    | nan => exact iff_of_false (fun h ↦ h.1 rfl) nofun
    | infinity negative => exact iff_of_false (fun h ↦ h.2 negative rfl) nofun
    | negZero => exact iff_of_true ⟨nofun, nofun⟩ ⟨_, rfl⟩
    | finite units => exact iff_of_true ⟨nofun, nofun⟩ ⟨_, rfl⟩

/-- What is left of a value is the value, but for the sign of a zero. -/
theorem unsigned_of_kept? (h : v.kept? = some w) : w.unsigned = v.unsigned := by
  cases v with
  | text s | flag b =>
    cases h
    rfl
  | number n =>
    cases n <;> cases h <;> rfl

/-- What JSON cannot write gives way to the default. -/
theorem kept?_or_of_not_isWritable (h : ¬ v.IsWritable) : v.kept?.or default = default := by
  cases hkept : v.kept? with
  | some w => exact absurd (isWritable_iff_exists_kept?.2 ⟨w, hkept⟩) h
  | none => rfl

/-- What JSON can write is read back as the same value, and nothing else is. -/
theorem isSame_kept?_or_iff (hdefault : ∀ w ∈ default, w.IsWritable) :
    IsSame (v.kept?.or default) (some v) ↔ v.IsWritable := by
  constructor
  · rintro ⟨hsame, -⟩
    by_contra hv
    rw [kept?_or_of_not_isWritable hv] at hsame
    obtain ⟨w, hw, hunsigned⟩ := Option.map_eq_some_iff.1 hsame
    rw [← isWritable_unsigned, ← hunsigned, isWritable_unsigned] at hv
    exact hv (hdefault w hw)
  · intro hv
    obtain ⟨w, hkept⟩ := isWritable_iff_exists_kept?.1 hv
    have hunsigned := unsigned_of_kept? hkept
    rw [← isWritable_unsigned, ← hunsigned, isWritable_unsigned] at hv
    rw [hkept, Option.some_or]
    exact ⟨congrArg some hunsigned, fun hnan ↦ (hv .nan (Option.some.inj hnan)).1 rfl⟩

/-! ### Strings in units -/

variable [Encoded τ]

@[simp]
theorem kind_units (v : SettingValue τ) : v.units.kind = v.kind := by
  cases v <;> rfl

theorem kept?_units (v : SettingValue τ) : v.units.kept? = v.kept?.map units := by
  cases v with
  | text s | flag b => rfl
  | number n =>
    rw [units, kept?, kept?]
    cases Json.kept? n <;> rfl

theorem isSound_units (h : v.IsSound) : v.units.IsSound := by
  rintro n hn
  cases v with
  | number m => exact h n (by cases hn; rfl)
  | text s | flag b => cases hn

theorem isWritable_units : v.units.IsWritable ↔ v.IsWritable := by
  rw [isWritable_iff_exists_kept?, isWritable_iff_exists_kept?, kept?_units]
  cases v.kept? with
  | none => exact iff_of_false nofun nofun
  | some w => exact iff_of_true ⟨_, rfl⟩ ⟨w, rfl⟩

end SettingValue

namespace Settings

theorem eq_keepRecent_of_get? {s : Settings τ} {key : SettingKey} (h : s.get? key = none) :
    key = .keepRecent := by
  cases key with
  | keepRecent => rfl
  | simpleBase | packageBase | concurrentResolve | requestTimeout | logLevel | bqQuery | debug =>
    cases h

section Defaults

variable [Encoded τ]

attribute [local irreducible] Binary64.ofNat

/-- Nothing is lost of the defaults. -/
theorem kept?_of_get?_defaults {key : SettingKey} {v : SettingValue τ}
    (h : v ∈ defaults.get? key) : v.kept? = some v := by
  have hkept : ∀ n : Binary64, n = .ofNat 64 ∨ n = .ofNat 30000 → Json.kept? n = some n := by
    rintro n (rfl | rfl) <;> decide +kernel
  cases key with
  | concurrentResolve =>
    obtain rfl : SettingValue.number (.ofNat 64) = v := Option.some.inj h
    rw [SettingValue.kept?, hkept _ (.inl rfl), Option.map_some]
  | requestTimeout =>
    obtain rfl : SettingValue.number (.ofNat 30000) = v := Option.some.inj h
    rw [SettingValue.kept?, hkept _ (.inr rfl), Option.map_some]
  | simpleBase | packageBase | logLevel | bqQuery | debug =>
    cases h
    rfl
  | keepRecent => cases h

theorem isWritable_of_get?_defaults {key : SettingKey} {v : SettingValue τ}
    (h : v ∈ defaults.get? key) : v.IsWritable :=
  SettingValue.isWritable_iff_exists_kept?.2 ⟨v, kept?_of_get?_defaults h⟩

end Defaults

namespace Store

open SettingValue (IsSame kept?_or_of_not_isWritable isSame_kept?_or_iff)

variable [DecidableEq τ] [Encoded τ] {store store' : Store} {name : τ} {value : Option (Json τ)}

/-! ### When a value is taken -/

theorem set_eq_ok_iff : store.set name value = .ok store' ↔
    ∃ (key : SettingKey) (v : SettingValue τ), SettingKey.ofName? name = some key ∧
      value = some v.toJson ∧ v.kind = key.kind ∧
      store' = ofSettings (store.read.overlay [(key, v.units)]) := by
  unfold set
  constructor
  · intro h
    split at h
    · cases h
    · split at h
      · cases h
      · rename_i key v hchange
        obtain ⟨json, hjson, hchange⟩ := Option.bind_eq_some_iff.1 hchange
        obtain ⟨hkey, hv, hkind⟩ := change?_eq_some_iff.1 hchange
        rw [SettingValue.ofJson?_eq_some_iff] at hv
        exact ⟨key, v, hkey, hv ▸ hjson, hkind, (Except.ok.inj h).symm⟩
  · rintro ⟨key, v, hkey, rfl, hkind, rfl⟩
    have hchange : change? name v.toJson = some (key, v) :=
      change?_eq_some_iff.2 ⟨hkey, SettingValue.ofJson?_eq_some_iff.2 rfl, hkind⟩
    simp only [hkey, Option.bind_some, hchange]

/-- A value of the right kind is taken under the name of a setting. -/
theorem set_name (store : Store) (key : SettingKey) (v : SettingValue τ) (h : v.kind = key.kind) :
    store.set (Encoded.ofString key.name) (some v.toJson) =
      .ok (ofSettings (store.read.overlay [(key, v.units)])) :=
  set_eq_ok_iff.2 ⟨key, v, SettingKey.ofName?_name key, rfl, h, rfl⟩

/-- **A value is refused exactly if there is no setting of the name or it is of another kind.** -/
theorem set_eq_error_iff : (∃ e, store.set name value = .error e) ↔
    ∀ key, SettingKey.ofName? name = some key → value.bind Json.kind? ≠ some key.kind := by
  have hok : (∃ store', store.set name value = .ok store') ↔
      ∃ key, SettingKey.ofName? name = some key ∧ value.bind Json.kind? = some key.kind := by
    simp only [set_eq_ok_iff, Option.bind_eq_some_iff, SettingValue.kind?_eq_some_iff]
    constructor
    · rintro ⟨_, key, v, hkey, hvalue, hkind, -⟩
      exact ⟨key, hkey, v.toJson, hvalue, v, rfl, hkind⟩
    · rintro ⟨key, hkey, _, hvalue, v, rfl, hkind⟩
      exact ⟨_, key, v, hkey, hvalue, hkind, rfl⟩
  cases hset : store.set name value with
  | error e =>
    refine iff_of_true ⟨e, rfl⟩ fun key hkey hkind ↦ ?_
    obtain ⟨store', h⟩ := hok.2 ⟨key, hkey, hkind⟩
    cases hset.symm.trans h
  | ok store' =>
    obtain ⟨key, hkey, hkind⟩ := hok.1 ⟨store', hset⟩
    exact iff_of_false nofun fun h ↦ h key hkey hkind

/-! ### What is read afterwards -/

/-- What is read after a setting has been given a value is what is left of it and of what was read
before. -/
theorem get?_read_overlay {key : SettingKey} {v : SettingValue Utf16} (hv : v.IsSound)
    (hkind : v.kind = key.kind) (other : SettingKey) :
    (ofSettings (store.read.overlay [(key, v)])).read.get? other =
      ((if other = key then some v else store.read.get? other).bind SettingValue.kept?).or
        (defaults.get? other) := by
  have hoverlay : (store.read.overlay [(key, v)]).IsSound :=
    isSound_overlay (isSound_read store) (by simpa using hv)
  rw [get?_read_ofSettings hoverlay, get?_overlay_singleton hkind]

/-- **A value that was taken is read back exactly if JSON can write it**, and what was read before
under any other name is read again exactly if JSON can write that. What cannot be written gives way
to the default. -/
theorem read_of_set (hvalue : ∀ n, value = some (.number n) → n.IsFormat)
    (h : store.set name value = .ok store') : ∃ (key : SettingKey) (v : SettingValue τ),
      SettingKey.ofName? name = some key ∧ value = some v.toJson ∧
      (IsSame (store'.read.get? key) (some v.units) ↔ v.IsWritable) ∧
      (¬ v.IsWritable → store'.read.get? key = defaults.get? key) ∧
      ∀ other ≠ key,
        (IsSame (store'.read.get? other) (store.read.get? other) ↔
          ∀ w ∈ store.read.get? other, w.IsWritable) ∧
        ((∃ w ∈ store.read.get? other, ¬ w.IsWritable) →
          store'.read.get? other = defaults.get? other) := by
  obtain ⟨key, v, hkey, rfl, hkind, rfl⟩ := set_eq_ok_iff.1 h
  have hv : v.IsSound := fun n hn ↦ hvalue n (by rw [hn, SettingValue.toJson])
  have hread : ∀ other, (ofSettings (store.read.overlay [(key, v.units)])).read.get? other = _ :=
    get?_read_overlay (SettingValue.isSound_units hv) (v.kind_units.trans hkind)
  refine ⟨key, v, hkey, rfl, ?_, fun hlost ↦ ?_, fun other hother ↦ ?_⟩
  · rw [hread, if_pos rfl, Option.bind_some, ← SettingValue.isWritable_units]
    exact isSame_kept?_or_iff fun w ↦ isWritable_of_get?_defaults
  · rw [← SettingValue.isWritable_units] at hlost
    rw [hread, if_pos rfl, Option.bind_some, kept?_or_of_not_isWritable hlost]
  · rw [hread, if_neg hother]
    cases hbefore : store.read.get? other with
    | none =>
      obtain rfl := eq_keepRecent_of_get? hbefore
      refine ⟨iff_of_true SettingValue.isSame_none fun w hw ↦ absurd hw (Option.not_mem_none w), ?_⟩
      rintro ⟨w, ⟨⟩, -⟩
    | some w =>
      rw [Option.bind_some]
      refine ⟨(isSame_kept?_or_iff fun w ↦ isWritable_of_get?_defaults).trans ?_, ?_⟩
      · simp
      · rintro ⟨_, ⟨⟩, hlost⟩
        exact kept?_or_of_not_isWritable hlost

/-- A file that gives a time to wait past all numbers. -/
def unbounded : Store := some "\x7b\"requestTimeout\":1e999\x7d"

/-- Another setting is changed, and the time to wait is lost. A text is read back unit by unit. -/
theorem read_of_set_unbounded :
    (∃ store', unbounded.set "debug" (some (.bool true)) = .ok store' ∧
      IsSame (store'.read.get? .debug) (some (.flag true)) ∧
      ¬ IsSame (store'.read.get? .requestTimeout) (unbounded.read.get? .requestTimeout) ∧
      store'.read.get? .requestTimeout = defaults.get? .requestTimeout) ∧
    ∃ store', unbounded.set "logLevel" (some (.string "warn")) = .ok store' ∧
      IsSame (store'.read.get? .logLevel) (some (.text [0x77, 0x61, 0x72, 0x6e])) := by
  constructor
  · have hset : unbounded.set "debug" (some (.bool true)) = .ok _ :=
      set_name unbounded .debug (.flag true) rfl
    obtain ⟨key, v, hkey, hv, hsame, -, hother⟩ := read_of_set (by rintro n ⟨⟩) hset
    obtain rfl : SettingKey.debug = key :=
      Option.some.inj ((SettingKey.ofName?_name .debug).symm.trans hkey)
    obtain rfl : SettingValue.flag true = v := SettingValue.toJson_injective (Option.some.inj hv)
    have hread : unbounded.read.get? .requestTimeout = some (.number (.infinity false)) := by
      decide +kernel
    have hlost : ¬ (SettingValue.number (.infinity false) : SettingValue Utf16).IsWritable :=
      fun h ↦ (h _ rfl).2 false rfl
    obtain ⟨hiff, hdefault⟩ := hother .requestTimeout (by decide)
    exact ⟨_, hset, hsame.2 (SettingValue.isWritable_flag true),
      fun h ↦ hlost (hiff.1 h _ hread), hdefault ⟨_, hread, hlost⟩⟩
  · have hset : unbounded.set "logLevel" (some (.string "warn")) = .ok _ :=
      set_name unbounded .logLevel (.text "warn") rfl
    obtain ⟨key, v, hkey, hv, hsame, -, -⟩ := read_of_set (by rintro n ⟨⟩) hset
    obtain rfl : SettingKey.logLevel = key :=
      Option.some.inj ((SettingKey.ofName?_name .logLevel).symm.trans hkey)
    obtain rfl : SettingValue.text "warn" = v := SettingValue.toJson_injective (Option.some.inj hv)
    exact ⟨_, hset, hsame.2 (SettingValue.isWritable_text "warn")⟩

/-- An infinite number of pages at a time is taken and not read back. -/
theorem set_infinity_lost : ∃ store' : Store,
    set none "concurrentResolve" (some (.number (.infinity false))) = .ok store' ∧
    ¬ IsSame (store'.read.get? .concurrentResolve) (some (.number (.infinity false))) := by
  refine ⟨_, set_name none .concurrentResolve (.number (.infinity false)) rfl, fun hsame ↦ ?_⟩
  have hsound : (SettingValue.number (.infinity false) : SettingValue Utf16).IsSound := by
    rintro n ⟨⟩
    exact .infinity false
  rw [SettingValue.units, get?_read_overlay hsound rfl, if_pos rfl, Option.bind_some,
    isSame_kept?_or_iff fun w ↦ isWritable_of_get?_defaults] at hsame
  exact (hsame _ rfl).2 false rfl

end Store

end Settings

end IndexSnapshot
