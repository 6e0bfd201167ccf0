import IndexSnapshot.Proofs.Json.Members
import IndexSnapshot.Proofs.Settings.Overlay
import IndexSnapshot.Settings.Store

/-!
# The settings file and what is read from it

Settings are written as an object and read back from it. What is read is what was written, but that
a number that JSON cannot write has its default again, and that the sign of a zero is lost
(`get?_read_ofSettings`). All numbers that a file gives are of the 64-bit format, so that this holds
of whatever was read from a file before.
-/

namespace IndexSnapshot

open Text (Encoded)

variable {τ : Type}

namespace SettingValue

/-- What is left of a value in the settings file. -/
def kept? : SettingValue τ → Option (SettingValue τ)
  | number n => (Json.kept? n).map number
  | v => some v

/-- Numbers are of the format, if the value is one. -/
def IsSound (v : SettingValue τ) : Prop := ∀ n, v = number n → n.IsFormat

variable {v w : SettingValue τ}

theorem kind_of_kept? (h : v.kept? = some w) : w.kind = v.kind := by
  cases v with
  | number n =>
    obtain ⟨x, -, rfl⟩ := Option.map_eq_some_iff.1 h
    rfl
  | text s | flag b =>
    cases h
    rfl

theorem ofJson?_kept_toJson (v : SettingValue τ) : ofJson? v.toJson.kept = v.kept? := by
  cases v with
  | number n =>
    rw [toJson, Json.kept, kept?]
    cases Json.kept? n <;> rfl
  | text s | flag b => rfl

theorem isScalar_toJson (v : SettingValue τ) : v.toJson.IsScalar = true := by
  cases v <;> rfl

theorem isSound_toJson (h : v.IsSound) : v.toJson.IsSound := by
  rintro n heq
  cases v with
  | number m =>
    cases heq
    exact h n rfl
  | text s | flag b => cases heq

end SettingValue

namespace Settings

variable {s : Settings τ} {key : SettingKey} {v : SettingValue τ} {cs : Changes τ}

/-- Numbers among the settings are of the format. -/
def IsSound (s : Settings τ) : Prop := ∀ key, ∀ v ∈ s.get? key, v.IsSound

theorem isSound_overlay (hs : s.IsSound) (hcs : ∀ c ∈ cs, c.2.IsSound) :
    (s.overlay cs).IsSound := by
  induction cs generalizing s with
  | nil => exact hs
  | cons c cs ih =>
    obtain ⟨key, v⟩ := c
    obtain ⟨hv, hcs⟩ := List.forall_mem_cons.1 hcs
    rw [overlay, List.foldl_cons]
    refine ih ?_ hcs
    dsimp only
    cases hput : s.put? key v with
    | none => exact hs
    | some t =>
      intro other w hw
      rw [Option.getD_some, get?_put? hput] at hw
      split_ifs at hw
      · cases hw
        exact hv
      · exact hs other w hw

-- what a number is made of is far too large to be computed while terms are compared
attribute [local irreducible] Binary64.ofNat

variable [Encoded τ]

theorem isSound_defaults : (defaults : Settings τ).IsSound := by
  rintro key v hv n rfl
  cases key with
  | concurrentResolve =>
    obtain rfl : Binary64.ofNat 64 = n := SettingValue.number.inj (Option.some.inj hv)
    exact Binary64.isFormat_ofNat 64
  | requestTimeout =>
    obtain rfl : Binary64.ofNat 30000 = n := SettingValue.number.inj (Option.some.inj hv)
    exact Binary64.isFormat_ofNat 30000
  | simpleBase | packageBase | logLevel | bqQuery | keepRecent | debug => cases hv

/-! ### Changes -/

section

variable [DecidableEq τ]

theorem change?_eq_some_iff {name : τ} {value : Json τ} :
    change? name value = some (key, v) ↔ SettingKey.ofName? name = some key ∧
      SettingValue.ofJson? value = some v ∧ v.kind = key.kind := by
  rw [change?]
  constructor
  · intro h
    obtain ⟨key', hkey, h⟩ := Option.bind_eq_some_iff.1 h
    obtain ⟨v', hv, h⟩ := Option.bind_eq_some_iff.1 h
    split at h
    · rename_i hfits
      cases h
      exact ⟨hkey, hv, fits_iff.1 hfits⟩
    · cases h
  · rintro ⟨hkey, hv, hkind⟩
    rw [hkey, hv]
    exact if_pos (fits_iff.2 hkind)

/-- What is left of a value is a change of its setting. -/
theorem change?_kept (hv : v.kind = key.kind) :
    change? (Encoded.ofString key.name) v.toJson.kept = v.kept?.map fun w ↦ (key, w) := by
  cases hkept : v.kept? with
  | some w =>
    rw [Option.map_some, change?_eq_some_iff, SettingValue.ofJson?_kept_toJson, hkept]
    exact ⟨SettingKey.ofName?_name key, rfl, (SettingValue.kind_of_kept? hkept).trans hv⟩
  | none =>
    rw [Option.map_none, Option.eq_none_iff_forall_not_mem]
    rintro ⟨other, w⟩ hw
    have hw := (change?_eq_some_iff.1 hw).2.1
    rw [SettingValue.ofJson?_kept_toJson, hkept] at hw
    cases hw

theorem isSound_of_mem_changes {json : Json τ} (hjson : ∀ m ∈ json.members, m.2.IsSound)
    {c : SettingKey × SettingValue τ} (hc : c ∈ changes json) : c.2.IsSound := by
  rintro n hn
  cases json with
  | object ms =>
    obtain ⟨⟨name, value⟩, hm, hchange⟩ := List.mem_filterMap.1 hc
    have hvalue := (change?_eq_some_iff.1 hchange).2.1
    rw [hn] at hvalue
    cases value with
    | number m =>
      cases hvalue
      exact hjson _ hm n rfl
    | null | bool | string | array | object => cases hvalue
  | null | bool | number | string | array => exact absurd hc List.not_mem_nil

end

/-- **All numbers that a file gives are of the format.** -/
theorem isSound_read (store : Store) : store.read.IsSound := by
  unfold Store.read
  split
  · exact isSound_defaults
  · split
    · rename_i json hjson
      exact isSound_overlay isSound_defaults fun c hc ↦
        isSound_of_mem_changes (Json.isSound_of_parse? hjson) hc
    · exact isSound_defaults

/-! ### The text of the file -/

theorem exists_of_mem_members {m : τ × Json τ} (hm : m ∈ s.members) :
    ∃ key v, s.get? key = some v ∧ m = (Encoded.ofString key.name, v.toJson) := by
  obtain ⟨key, -, hkey⟩ := List.mem_filterMap.1 hm
  obtain ⟨v, hv, rfl⟩ := Option.map_eq_some_iff.1 hkey
  exact ⟨key, v, hv, rfl⟩

theorem areRows_members (hs : s.IsSound) : Json.AreRows s.members := by
  intro m hm
  obtain ⟨key, v, hv, rfl⟩ := exists_of_mem_members hm
  exact ⟨v.isScalar_toJson, SettingValue.isSound_toJson (hs key v hv)⟩

theorem members_ne_nil (s : Settings τ) : s.members ≠ [] :=
  List.ne_nil_of_mem (List.mem_filterMap.2 ⟨.simpleBase, SettingKey.mem_fileOrder _, rfl⟩)

variable [DecidableEq τ]

theorem nodup_names_members (s : Settings τ) : (s.members.map Prod.fst).Nodup := by
  have hnames : s.members.map Prod.fst =
      fileOrder.filterMap fun key ↦ (s.get? key).map fun _ ↦ Encoded.ofString key.name := by
    simp only [members, List.map_filterMap, Option.map_map, Function.comp_def]
  rw [hnames]
  refine List.Nodup.filterMap (fun key other name hkey hother ↦ ?_) (by decide)
  obtain ⟨-, -, hkey⟩ := Option.map_eq_some_iff.1 hkey
  obtain ⟨-, -, hother⟩ := Option.map_eq_some_iff.1 hother
  exact SettingKey.eq_of_name_eq (hkey.trans hother.symm)

omit [DecidableEq τ] in
theorem index?_name (key : SettingKey) :
    Json.index? (Encoded.ofString key.name : τ) = none := by
  rw [Json.index?_ofString]
  cases key <;> decide +kernel

/-- The file is read as the object of what is left of the settings. -/
theorem parse?_toJson (hs : s.IsSound) :
    Json.parse? (s.toJson.indented ++ "\n") τ = some (.object (Json.keptMembers s.members)) := by
  rw [toJson, Json.parse?_indented (members_ne_nil s) (areRows_members hs),
    Json.ofPairs_eq_object]
  · rw [Json.map_fst_keptMembers]
    exact nodup_names_members s
  · intro pair hpair
    have hname := List.mem_map_of_mem (f := Prod.fst) hpair
    rw [Json.map_fst_keptMembers] at hname
    obtain ⟨m, hm, hfst⟩ := List.mem_map.1 hname
    obtain ⟨key, v, -, rfl⟩ := exists_of_mem_members hm
    rw [← hfst]
    exact index?_name key

theorem changes_keptMembers (s : Settings τ) : changes (.object (Json.keptMembers s.members)) =
    fileOrder.filterMap fun key ↦ ((s.get? key).bind SettingValue.kept?).map fun v ↦ (key, v) := by
  rw [changes, Json.keptMembers, members, List.map_filterMap, List.filterMap_filterMap]
  refine List.filterMap_congr fun key _ ↦ ?_
  cases hv : s.get? key with
  | none => rfl
  | some v => exact change?_kept (kind_of_get? hv)

omit [DecidableEq τ] in
theorem dropByteOrderMark_indented (s : Settings τ) :
    dropByteOrderMark (s.toJson.indented ++ "\n") = s.toJson.indented ++ "\n" := by
  obtain ⟨m, ms, hms⟩ := List.exists_cons_of_ne_nil (members_ne_nil s)
  have htext : ∃ tail, (s.toJson.indented ++ "\n").toList = '\x7b' :: tail := by
    rw [toJson, hms, Json.indented, Json.indentedChars, String.toList_append, String.toList_ofList]
    exact ⟨_, rfl⟩
  obtain ⟨tail, htail⟩ := htext
  unfold dropByteOrderMark
  split
  · rename_i heq
    rw [htail] at heq
    exact absurd (List.cons_eq_cons.1 heq).1 (by decide)
  · rfl

/-- **What is read is what was written**, but for what is not kept of numbers. -/
theorem get?_read_ofSettings {s : Settings Utf16} (hs : s.IsSound) (key : SettingKey) :
    (Store.ofSettings s).read.get? key =
      ((s.get? key).bind SettingValue.kept?).or (defaults.get? key) := by
  have hkinds : ∀ key, ∀ v ∈ (s.get? key).bind SettingValue.kept?, v.kind = key.kind := by
    intro key v hv
    obtain ⟨w, hw, hkept⟩ := Option.bind_eq_some_iff.1 hv
    exact (SettingValue.kind_of_kept? hkept).trans (kind_of_get? hw)
  simp only [Store.ofSettings, Store.read, dropByteOrderMark_indented, parse?_toJson hs,
    changes_keptMembers]
  rw [get?_overlay_filterMap hkinds, if_pos (SettingKey.mem_fileOrder key)]

end Settings

end IndexSnapshot
