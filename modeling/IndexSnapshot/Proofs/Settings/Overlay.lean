import IndexSnapshot.Settings.Basic
import Mathlib.Data.List.Basic

/-!
# Settings key by key

Settings are what they hold under each key (`ext_get?`), and giving one of them a new value of the
right kind changes it and nothing else (`get?_put?`). The object that they are written as has their
values under their names and nothing under any other name (`member?_toJson`).
-/

namespace IndexSnapshot

open Text (Encoded)

/-- What kind a value is of. -/
inductive Kind where
  | text
  | number
  | flag
  deriving DecidableEq, Repr

/-- The kind of a value. -/
def SettingValue.kind {τ : Type} : SettingValue τ → Kind
  | text _ => .text
  | number _ => .number
  | flag _ => .flag

/-- The kind that the values of a setting are of. -/
def SettingKey.kind : SettingKey → Kind
  | simpleBase | packageBase | logLevel => .text
  | concurrentResolve | requestTimeout | keepRecent => .number
  | bqQuery | debug => .flag

variable {τ : Type} [DecidableEq τ] [Encoded τ]

namespace SettingKey

variable {name : τ} {key : SettingKey}

/-- Names are told apart alike in all types of strings. -/
theorem find?_ofString_name (keys : List SettingKey) (key : SettingKey) :
    (keys.find? fun other ↦ Encoded.ofString other.name = (Encoded.ofString key.name : τ)) =
      keys.find? fun other ↦ other.name = key.name :=
  congrArg (List.find? · keys) (funext fun _ ↦ decide_eq_decide.2 Encoded.ofString_inj)

theorem ofName?_name (key : SettingKey) : ofName? (Encoded.ofString key.name : τ) = some key := by
  rw [ofName?, find?_ofString_name]
  cases key <;> decide +kernel

theorem ofName?_eq_some_iff : ofName? name = some key ↔ Encoded.ofString key.name = name := by
  constructor
  · intro h
    have hname := List.find?_some h
    exact of_decide_eq_true hname
  · rintro rfl
    exact ofName?_name key

/-- Two settings of one name are the same. -/
theorem eq_of_name_eq {other : SettingKey}
    (h : (Encoded.ofString key.name : τ) = Encoded.ofString other.name) : key = other := by
  have hkey := ofName?_name (τ := τ) key
  rw [h, ofName?_name other] at hkey
  exact (Option.some.inj hkey).symm

theorem mem_fileOrder (key : SettingKey) : key ∈ Settings.fileOrder := by
  cases key <;> decide

end SettingKey

namespace Settings

variable {s t : Settings τ} {key other : SettingKey} {v : SettingValue τ}

section

omit [DecidableEq τ] [Encoded τ]

/-! ### Values of settings -/

/-- Settings with the same values are the same. -/
theorem ext_get? (h : ∀ key, s.get? key = t.get? key) : s = t := by
  obtain ⟨simpleBase, packageBase, concurrent, timeout, level, query, keep, debug⟩ := s
  obtain ⟨simpleBase', packageBase', concurrent', timeout', level', query', keep', debug'⟩ := t
  have hkeep : keep = keep' := by
    have hmap := h .keepRecent
    exact Option.map_injective (fun _ _ heq ↦ SettingValue.number.inj heq) hmap
  have hsimple := h .simpleBase
  have hpackage := h .packageBase
  have hconcurrent := h .concurrentResolve
  have htimeout := h .requestTimeout
  have hlevel := h .logLevel
  have hquery := h .bqQuery
  have hdebug := h .debug
  simp only [get?, Option.some.injEq, SettingValue.text.injEq, SettingValue.number.injEq,
    SettingValue.flag.injEq] at hsimple hpackage hconcurrent htimeout hlevel hquery hdebug
  subst hkeep hsimple hpackage hconcurrent htimeout hlevel hquery hdebug
  rfl

/-- A value of the right kind can be put, and no other. -/
theorem isSome_put?_iff : (s.put? key v).isSome = true ↔ v.kind = key.kind := by
  cases key <;> cases v <;> simp [put?, SettingValue.kind, SettingKey.kind]

/-- A new value changes nothing under another key. -/
theorem get?_put? (h : s.put? key v = some t) (other : SettingKey) :
    t.get? other = if other = key then some v else s.get? other := by
  cases key <;> cases v <;> cases h <;> cases other <;> rfl

theorem kind_of_get? (h : s.get? key = some v) : v.kind = key.kind := by
  cases key with
  | keepRecent =>
    obtain ⟨n, -, rfl⟩ := Option.map_eq_some_iff.1 h
    rfl
  | simpleBase | packageBase | concurrentResolve | requestTimeout | logLevel | bqQuery | debug =>
    cases h
    rfl

/-- The settings after one change of the right kind. -/
theorem get?_overlay_cons (s : Settings τ) (hv : v.kind = key.kind) (cs : Changes τ) :
    ∃ t : Settings τ, s.overlay ((key, v) :: cs) = t.overlay cs ∧
      ∀ other, t.get? other = if other = key then some v else s.get? other := by
  obtain ⟨t, ht⟩ := Option.isSome_iff_exists.1 (isSome_put?_iff.2 hv)
  refine ⟨t, ?_, get?_put? ht⟩
  rw [overlay, List.foldl_cons]
  dsimp only
  rw [ht]
  rfl

theorem get?_overlay_singleton (hv : v.kind = key.kind) (other : SettingKey) :
    (s.overlay [(key, v)]).get? other = if other = key then some v else s.get? other := by
  obtain ⟨t, ht, hget⟩ := get?_overlay_cons s hv []
  rw [ht]
  exact hget other

/-- Changes that give each of some keys a value or none. -/
theorem get?_overlay_filterMap {g : SettingKey → Option (SettingValue τ)}
    (hg : ∀ key, ∀ v ∈ g key, v.kind = key.kind) (keys : List SettingKey) (key : SettingKey) :
    (s.overlay (keys.filterMap fun key ↦ (g key).map fun v ↦ (key, v))).get? key =
      if key ∈ keys then (g key).or (s.get? key) else s.get? key := by
  induction keys generalizing s with
  | nil => simp [overlay]
  | cons first keys ih =>
    cases hfirst : g first with
    | none =>
      rw [List.filterMap_cons_none (by simp [hfirst]), ih]
      by_cases heq : key = first
      · subst heq
        simp [hfirst]
      · simp [heq]
    | some v =>
      rw [List.filterMap_cons_some (b := (first, v)) (by simp [hfirst])]
      obtain ⟨t, ht, hget⟩ := get?_overlay_cons s (hg first v hfirst)
        (keys.filterMap fun key ↦ (g key).map fun v ↦ (key, v))
      rw [ht, ih, hget]
      by_cases heq : key = first
      · subst heq
        simp [hfirst]
      · simp [heq]

end

omit [DecidableEq τ] in
theorem fits_iff : fits key v = true ↔ v.kind = key.kind := isSome_put?_iff

/-! ### The object of settings -/

theorem lookup_filterMap_name (g : SettingKey → Option (Json τ)) (keys : List SettingKey)
    (name : τ) :
    (keys.filterMap fun key ↦ (g key).map fun v ↦ (Encoded.ofString key.name, v)).lookup name =
      (keys.find? fun key ↦ Encoded.ofString key.name = name).bind g := by
  induction keys with
  | nil => rfl
  | cons first keys ih =>
    by_cases hname : Encoded.ofString first.name = name
    · subst hname
      rw [List.find?_cons_of_pos (by simp), Option.bind_some]
      cases hfirst : g first with
      | none =>
        rw [List.filterMap_cons_none (by simp [hfirst]), ih, Option.bind_eq_none_iff]
        intro key hkey
        have hname := List.find?_some hkey
        rw [SettingKey.eq_of_name_eq (of_decide_eq_true hname), hfirst]
      | some v =>
        rw [List.filterMap_cons_some (b := (Encoded.ofString first.name, v)) (by simp [hfirst]),
          List.lookup_cons_self]
    · rw [List.find?_cons_of_neg (by simpa using hname), ← ih]
      cases hfirst : g first with
      | none => rw [List.filterMap_cons_none (by simp [hfirst])]
      | some v =>
        rw [List.filterMap_cons_some (b := (Encoded.ofString first.name, v)) (by simp [hfirst]),
          List.lookup_cons, beq_eq_false_iff_ne.2 (Ne.symm hname)]

theorem find?_fileOrder (name : τ) :
    (fileOrder.find? fun key ↦ Encoded.ofString key.name = name) = SettingKey.ofName? name := by
  cases hname : SettingKey.ofName? name with
  | some key =>
    rw [SettingKey.ofName?_eq_some_iff] at hname
    subst hname
    rw [SettingKey.find?_ofString_name]
    cases key <;> decide +kernel
  | none =>
    rw [List.find?_eq_none]
    intro key _ hkey
    rw [SettingKey.ofName?_eq_some_iff.2 (of_decide_eq_true hkey)] at hname
    cases hname

/-- **The object of settings has their values under their names, and nothing else.** -/
theorem member?_toJson (s : Settings τ) (name : τ) :
    s.toJson.member? name =
      (SettingKey.ofName? name).bind fun key ↦ (s.get? key).map SettingValue.toJson := by
  rw [← find?_fileOrder, ← lookup_filterMap_name, toJson, Json.member?]
  simp only [members, Option.map_map, Function.comp_def]

end Settings

end IndexSnapshot
