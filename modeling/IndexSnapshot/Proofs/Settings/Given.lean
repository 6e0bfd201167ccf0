import IndexSnapshot.Proofs.Settings.Store

/-!
# What an object gives

An object is made of names and values that are given one after the other, and under each name it
has the last value given (`Json.lookup_members_ofPairs`). The settings after the changes that it
makes have, under each key, this value if it is of the kind of the setting, and what they had before
if not (`Settings.get?_overlay_ofPairs`); values given under other names make no difference.
-/

namespace IndexSnapshot

open Text (Encoded)

variable {τ : Type} [DecidableEq τ] [Encoded τ]

namespace Json

variable {name other : τ} {value : Json τ} {members pairs : List (τ × Json τ)}

/-- The last value that a name is given. -/
def lastValue? (pairs : List (τ × Json τ)) (name : τ) : Option (Json τ) :=
  pairs.reverse.lookup name

/-- The members of a name. -/
def membersOf (name : τ) (members : List (τ × Json τ)) : List (τ × Json τ) :=
  members.filter fun member ↦ member.1 = name

theorem lookup_insert_self (name : τ) (value : Json τ) (members : List (τ × Json τ)) :
    (insert name value members).lookup name = some value := by
  induction members with
  | nil => exact List.lookup_cons_self
  | cons member members ih =>
    obtain ⟨first, old⟩ := member
    rw [insert]
    split
    · exact List.lookup_cons_self
    · rename_i hne
      split
      · exact List.lookup_cons_self
      · rw [List.lookup_cons, beq_eq_false_iff_ne.2 (Ne.symm hne)]
        exact ih

/-- **An object has the last value that a name is given.** -/
theorem lookup_members_ofPairs (pairs : List (τ × Json τ)) (name : τ) :
    (ofPairs pairs).members.lookup name = lastValue? pairs name := by
  induction pairs using List.reverseRecOn with
  | nil => rfl
  | append_singleton pairs pair ih =>
    rw [members_ofPairs_append, lastValue?, List.reverse_append, List.reverse_singleton,
      List.singleton_append, List.lookup_cons]
    by_cases hname : name = pair.1
    · subst hname
      rw [lookup_insert_self, beq_self_eq_true]
    · rw [lookup_insert_of_ne hname, ih, beq_eq_false_iff_ne.2 hname]
      rfl

/-! ### Members of one name -/

theorem membersOf_insert_of_ne (h : other ≠ name) (value : Json τ) (members : List (τ × Json τ)) :
    membersOf name (insert other value members) = membersOf name members := by
  induction members with
  | nil => simp [insert, membersOf, h]
  | cons member members ih =>
    obtain ⟨first, old⟩ := member
    rw [insert]
    split
    · rename_i heq
      subst heq
      simp [membersOf, h]
    · split
      · simp [membersOf, h]
      · simp only [membersOf, List.filter_cons] at ih ⊢
        rw [ih]

/-- A name that is no index keeps its place, or is put behind all others. -/
theorem membersOf_insert_self (hname : index? name = none) (value : Json τ)
    (h : (membersOf name members).length ≤ 1) :
    membersOf name (insert name value members) = [(name, value)] := by
  have hprecedes : ∀ other, precedes name other = false := fun other ↦ by
    rw [precedes, hname]
  induction members with
  | nil => simp [insert, membersOf]
  | cons member members ih =>
    obtain ⟨first, old⟩ := member
    rw [insert]
    split
    · rename_i heq
      subst heq
      have hnone : membersOf first members = [] := by
        simpa [membersOf] using h
      simp only [membersOf, List.filter_cons] at hnone ⊢
      rw [hnone]
      simp
    · rename_i hne
      rw [if_neg (by simp [hprecedes])]
      simp only [membersOf, List.filter_cons, hne, decide_false] at ih h ⊢
      exact ih h

/-- Under a name that is no index an object has one member or none. -/
theorem membersOf_ofPairs (hname : index? name = none) (pairs : List (τ × Json τ)) :
    membersOf name (ofPairs pairs).members =
      ((lastValue? pairs name).map fun value ↦ (name, value)).toList := by
  induction pairs using List.reverseRecOn with
  | nil => rfl
  | append_singleton pairs pair ih =>
    have hlength : (membersOf name (ofPairs pairs).members).length ≤ 1 := by
      rw [ih]
      cases (lastValue? pairs name).map fun value ↦ (name, value) <;> simp
    rw [members_ofPairs_append, lastValue?, List.reverse_append, List.reverse_singleton,
      List.singleton_append, List.lookup_cons]
    by_cases heq : name = pair.1
    · subst heq
      rw [membersOf_insert_self hname _ hlength, beq_self_eq_true]
      rfl
    · rw [membersOf_insert_of_ne (Ne.symm heq), ih, beq_eq_false_iff_ne.2 heq]
      rfl

end Json

namespace Settings

variable {s t : Settings τ} {key : SettingKey}

/-- The value of a setting that a JSON value is, when it is of the kind of the setting. -/
def valueFor? (key : SettingKey) (value : Json τ) : Option (SettingValue τ) :=
  (SettingValue.ofJson? value).filter fun v ↦ v.kind = key.kind

theorem change?_name (key : SettingKey) (value : Json τ) :
    change? (Encoded.ofString key.name) value = (valueFor? key value).map fun v ↦ (key, v) := by
  rw [valueFor?, change?, SettingKey.ofName?_name]
  cases hvalue : SettingValue.ofJson? value with
  | none => rfl
  | some v =>
    by_cases hkind : v.kind = key.kind
    · rw [Option.filter_some, if_pos (decide_eq_true hkind)]
      exact if_pos (fits_iff.2 hkind)
    · rw [Option.filter_some, if_neg (by simpa using hkind)]
      exact if_neg (mt fits_iff.1 hkind)

/-- Changes of a setting are made by members of its name. -/
theorem filter_changes (key : SettingKey) (members : List (τ × Json τ)) :
    (changes (.object members)).filter (fun c ↦ c.1 = key) =
      changes (.object (Json.membersOf (Encoded.ofString key.name) members)) := by
  rw [changes, changes, Json.membersOf, List.filter_filterMap, List.filterMap_filter]
  refine List.filterMap_congr fun member _ ↦ ?_
  obtain ⟨name, value⟩ := member
  dsimp only
  cases hchange : change? name value with
  | none => simp
  | some c =>
    obtain ⟨other, v⟩ := c
    have hname := SettingKey.ofName?_eq_some_iff.1 (change?_eq_some_iff.1 hchange).1
    by_cases hkey : other = key
    · subst hkey
      simp [hname]
    · have hne : name ≠ Encoded.ofString key.name := fun heq ↦
        hkey (SettingKey.eq_of_name_eq (hname.trans heq))
      simp [hkey, hne]

omit [DecidableEq τ] [Encoded τ] in
theorem get?_change (s : Settings τ) (c : SettingKey × SettingValue τ) (key : SettingKey) :
    ((s.put? c.1 c.2).getD s).get? key =
      if key = c.1 ∧ c.2.kind = c.1.kind then some c.2 else s.get? key := by
  cases hput : s.put? c.1 c.2 with
  | some t =>
    have hkind := isSome_put?_iff.1 (Option.isSome_iff_exists.2 ⟨t, hput⟩)
    rw [Option.getD_some, get?_put? hput]
    simp [hkind]
  | none =>
    have hkind : ¬ c.2.kind = c.1.kind := fun hkind ↦ by
      have hsome : (s.put? c.1 c.2).isSome = true := isSome_put?_iff.2 hkind
      rw [hput] at hsome
      cases hsome
    rw [Option.getD_none, if_neg fun h ↦ hkind h.2]

omit [DecidableEq τ] [Encoded τ] in
/-- Changes of other settings make no difference. -/
theorem get?_overlay_filter (hst : s.get? key = t.get? key) (cs : Changes τ) :
    (s.overlay cs).get? key = (t.overlay (cs.filter fun c ↦ c.1 = key)).get? key := by
  induction cs generalizing s t with
  | nil => exact hst
  | cons c cs ih =>
    have hstep : s.overlay (c :: cs) = ((s.put? c.1 c.2).getD s).overlay cs := rfl
    rw [hstep, List.filter_cons]
    split
    · refine ih ?_
      dsimp only
      rw [get?_change, get?_change, hst]
    · rename_i hne
      refine ih ?_
      rw [get?_change, if_neg fun h ↦ hne (decide_eq_true h.1.symm), hst]

/-- **Settings after the changes that an object makes**: each has the last value that it is given
there, if this is of its kind, and what it had before if not. -/
theorem get?_overlay_ofPairs (s : Settings τ) (pairs : List (τ × Json τ)) (key : SettingKey) :
    (s.overlay (changes (Json.ofPairs pairs))).get? key =
      ((Json.lastValue? pairs (Encoded.ofString key.name)).bind (valueFor? key)).or
        (s.get? key) := by
  have hobject : Json.ofPairs pairs = .object (Json.ofPairs pairs).members := rfl
  rw [hobject, get?_overlay_filter rfl, filter_changes, Json.membersOf_ofPairs (index?_name key)]
  cases Json.lastValue? pairs (Encoded.ofString key.name) with
  | none => rfl
  | some value =>
    rw [Option.map_some, Option.toList_some, Option.bind_some, changes, List.filterMap_cons]
    dsimp only
    rw [change?_name]
    cases hvalue : valueFor? key value with
    | none => rfl
    | some v =>
      have hkind : v.kind = key.kind := by
        rw [valueFor?, Option.filter_eq_some_iff] at hvalue
        exact of_decide_eq_true hvalue.2
      exact (get?_overlay_singleton hkind key).trans (if_pos rfl)

end Settings

end IndexSnapshot
