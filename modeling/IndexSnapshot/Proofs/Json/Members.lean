import IndexSnapshot.Proofs.Json.Acceptance
import IndexSnapshot.Proofs.Json.Numeral
import IndexSnapshot.Proofs.Json.Strings

/-!
# Objects in JSON texts

An object whose members have no parts of their own is written as rows of a name and a value, with
blanks in places that depend on the form. In every such form it is read back (`parse?_rowsChars`):
names and values are those that were written, but for what is not kept of a number. All numbers in
what is read are of the 64-bit format (`isSound_of_parse?`).
-/

namespace IndexSnapshot.Json

open Text (Encoded)

variable {τ : Type} {v : Json τ} {cs rest gap mid post : List Char}

/-! ### Values without parts -/

/-- The value is no list and no object. -/
def IsScalar : Json τ → Bool
  | array _ => false
  | object _ => false
  | _ => true

/-- Numbers are of the format, if the value is one. -/
def IsSound (v : Json τ) : Prop := ∀ n, v = number n → n.IsFormat

/-- What is left of a value in a text. -/
def kept : Json τ → Json τ
  | number n => (kept? n).elim null number
  | v => v

variable [DecidableEq τ] [Encoded τ]

/-- **A value without parts is written as a text that denotes what is left of it.** -/
theorem denotes_compactChars (hv : v.IsScalar = true) (hsound : v.IsSound) :
    Denotes (compactChars v) (.value v.kept) := by
  cases v with
  | null => exact .null
  | bool b =>
    cases b
    · exact .false
    · exact .true
  | number n =>
    rw [compactChars, kept]
    cases hkept : kept? n with
    | none =>
      have hnull : numeral n = "null".toList := by
        cases n with
        | nan => rfl
        | infinity => rfl
        | negZero => cases hkept
        | finite units => cases hkept
      rw [hnull]
      exact .null
    | some x => exact .number (denotesNumber_numeral (hsound n rfl) hkept)
  | string s => exact .string (denotesString_escape s)
  | array items => cases hv
  | object members => cases hv

/-! ### Rows of members -/

/-- A member: its name, and its value behind a colon. -/
def rowChars (gap mid : List Char) (m : τ × Json τ) : List Char :=
  gap ++ (quote m.1 ++ ':' :: (mid ++ compactChars m.2))

/-- Members with commas between them. -/
def rowsChars (gap mid : List Char) : List (τ × Json τ) → List Char
  | [] => []
  | [m] => rowChars gap mid m
  | m :: ms => rowChars gap mid m ++ ',' :: rowsChars gap mid ms

/-- Members whose values have no parts. -/
def AreRows (ms : List (τ × Json τ)) : Prop := ∀ m ∈ ms, m.2.IsScalar = true ∧ m.2.IsSound

/-- What is left of members in a text. -/
def keptMembers (ms : List (τ × Json τ)) : List (τ × Json τ) :=
  ms.map fun m ↦ (m.1, m.2.kept)

omit [DecidableEq τ] [Encoded τ] in
theorem map_fst_keptMembers (ms : List (τ × Json τ)) :
    (keptMembers ms).map Prod.fst = ms.map Prod.fst := by
  rw [keptMembers, List.map_map]
  rfl

omit [Encoded τ] in
theorem lookup_keptMembers (name : τ) (ms : List (τ × Json τ)) :
    (keptMembers ms).lookup name = (ms.lookup name).map kept := by
  induction ms with
  | nil => rfl
  | cons m ms ih =>
    rw [keptMembers, List.map_cons, List.lookup_cons, List.lookup_cons]
    cases name == m.1 with
    | true => rfl
    | false => exact ih

theorem denotes_rowChars (hgap : IsBlank gap) (hmid : IsBlank mid) (hpost : IsBlank post)
    {m : τ × Json τ} (hm : m.2.IsScalar = true ∧ m.2.IsSound) :
    Denotes (rowChars gap mid m ++ post) (.member (m.1, m.2.kept)) := by
  have hvalue := denotes_compactChars hm.1 hm.2
  have hmember := Denotes.member hgap (denotesString_escape m.1) (List.forall_mem_nil _)
    (.element hmid hvalue hpost)
  simpa [rowChars, quote] using hmember

/-- Rows denote what is left of the members. -/
theorem denotes_rowsChars (hgap : IsBlank gap) (hmid : IsBlank mid) (hpost : IsBlank post)
    {ms : List (τ × Json τ)} (hne : ms ≠ []) (hms : AreRows ms) :
    Denotes (rowsChars gap mid ms ++ post) (.members (keptMembers ms)) := by
  induction ms with
  | nil => exact absurd rfl hne
  | cons m ms ih =>
    obtain ⟨hm, hms⟩ := List.forall_mem_cons.1 hms
    cases ms with
    | nil => exact .lastMember (denotes_rowChars hgap hmid hpost hm)
    | cons next ms =>
      have hrow := denotes_rowChars hgap hmid (List.forall_mem_nil _) hm
      have hmore := Denotes.moreMembers hrow (ih (List.cons_ne_nil next ms) hms)
      rw [List.append_nil] at hmore
      rw [rowsChars, List.append_assoc]
      · exact hmore
      · exact List.cons_ne_nil next ms

/-- **An object of values without parts is read back** in every form that it is written in. -/
theorem parse?_rowsChars (hgap : IsBlank gap) (hmid : IsBlank mid) (hpost : IsBlank post)
    (hrest : IsBlank rest) {ms : List (τ × Json τ)} (hne : ms ≠ []) (hms : AreRows ms) :
    parse? (String.ofList ('\x7b' :: (rowsChars gap mid ms ++ (post ++ '\x7d' :: rest)))) τ =
      some (ofPairs (keptMembers ms)) := by
  have hobject := Denotes.object (.braces (denotes_rowsChars hgap hmid hpost hne hms))
  have helement := Denotes.element (List.forall_mem_nil _) hobject hrest
  rw [parse?_eq_some_iff, String.toList_ofList]
  simpa using helement

/-! ### The forms of an object -/

omit [DecidableEq τ] in
theorem indentedChars_of_isScalar (hv : v.IsScalar = true) (level : ℕ) :
    indentedChars level v = compactChars v := by
  cases v with
  | null | bool | number | string => rw [indentedChars, compactChars]
  | array items => cases hv
  | object members => cases hv

omit [DecidableEq τ] in
theorem indentedMembers_eq_rowsChars {ms : List (τ × Json τ)} (hms : AreRows ms) (level : ℕ) :
    indentedMembers level ms = rowsChars (newLine level) [' '] ms := by
  induction ms with
  | nil => rfl
  | cons m ms ih =>
    obtain ⟨hm, hms⟩ := List.forall_mem_cons.1 hms
    cases ms with
    | nil =>
      rw [indentedMembers, rowsChars, rowChars, indentedChars_of_isScalar hm.1]
      simp
    | cons next ms =>
      rw [indentedMembers, rowsChars, ih hms, rowChars, indentedChars_of_isScalar hm.1]
      · simp
      · exact List.cons_ne_nil next ms
      · exact List.cons_ne_nil next ms

theorem isBlank_newLine (level : ℕ) : IsBlank (newLine level) := by
  intro c hc
  rcases List.mem_cons.1 hc with rfl | hc
  · decide
  · rw [List.eq_of_mem_replicate hc]
    decide

/-- The object after one more name and value. -/
theorem members_ofPairs_append (pairs : List (τ × Json τ)) (pair : τ × Json τ) :
    (ofPairs (pairs ++ [pair])).members = insert pair.1 pair.2 (ofPairs pairs).members := by
  rw [ofPairs, ofPairs, List.foldl_append]
  rfl

/-- No name is given twice, and none precedes one before it. -/
def IsOrdered (names : List τ) : Prop :=
  names.Pairwise fun name other ↦ name ≠ other ∧ precedes other name = false

theorem insert_of_forall {name : τ} {ms : List (τ × Json τ)}
    (h : ∀ other ∈ ms.map Prod.fst, other ≠ name ∧ precedes name other = false) (value : Json τ) :
    insert name value ms = ms ++ [(name, value)] := by
  induction ms with
  | nil => rfl
  | cons m ms ih =>
    obtain ⟨⟨hne, hprecedes⟩, hms⟩ := List.forall_mem_cons.1 h
    rw [insert, if_neg hne, if_neg (by simp [hprecedes]), ih hms]
    rfl

/-- **An object made of ordered members has them in the same places.** -/
theorem ofPairs_of_isOrdered {ms : List (τ × Json τ)} (h : IsOrdered (ms.map Prod.fst)) :
    ofPairs ms = object ms := by
  have hmembers : (ofPairs ms).members = ms := by
    induction ms using List.reverseRecOn with
    | nil => rfl
    | append_singleton ms m ih =>
      rw [List.map_append] at h
      obtain ⟨hfront, -, hlast⟩ := List.pairwise_append.1 h
      rw [members_ofPairs_append, ih hfront,
        insert_of_forall fun other hother ↦ hlast other hother _ List.mem_cons_self]
  exact congrArg object hmembers

/-- Names that are no indices stay in the order in which they are given. -/
theorem ofPairs_eq_object {pairs : List (τ × Json τ)} (hnodup : (pairs.map Prod.fst).Nodup)
    (hnames : ∀ pair ∈ pairs, index? pair.1 = none) : ofPairs pairs = object pairs := by
  refine ofPairs_of_isOrdered (hnodup.imp_of_mem fun {name other} _ hother hne ↦ ⟨hne, ?_⟩)
  obtain ⟨pair, hpair, rfl⟩ := List.mem_map.1 hother
  rw [precedes, hnames pair hpair]

/-- **The indented form of an object is read back.** -/
theorem parse?_indented {ms : List (τ × Json τ)} (hne : ms ≠ []) (hms : AreRows ms) :
    parse? ((object ms).indented ++ "\n") τ = some (ofPairs (keptMembers ms)) := by
  obtain ⟨m, tail, rfl⟩ := List.exists_cons_of_ne_nil hne
  have htext : (object (m :: tail)).indented ++ "\n" = String.ofList ('\x7b' ::
      (rowsChars (newLine 1) [' '] (m :: tail) ++ (newLine 0 ++ '\x7d' :: ['\n']))) := by
    rw [indented, indentedChars, indentedMembers_eq_rowsChars hms]
    simp [← String.toList_inj]
  rw [htext]
  exact parse?_rowsChars (isBlank_newLine 1) (by simp [IsBlank, isSpace]) (isBlank_newLine 0)
    (by simp [IsBlank, isSpace]) hne hms

/-! ### Members of an object -/

theorem eq_or_mem_of_mem_insert {name : τ} {value : Json τ} {ms : List (τ × Json τ)}
    {m : τ × Json τ} (h : m ∈ insert name value ms) : m = (name, value) ∨ m ∈ ms := by
  induction ms with
  | nil => exact .inl (List.mem_singleton.1 h)
  | cons other ms ih =>
    rw [insert] at h
    split at h
    · exact (List.mem_cons.1 h).imp id (List.mem_cons_of_mem other)
    · split at h
      · exact List.mem_cons.1 h
      · rcases List.mem_cons.1 h with rfl | h
        · exact .inr List.mem_cons_self
        · exact (ih h).imp id (List.mem_cons_of_mem other)

theorem mem_or_mem_of_mem_foldl {ms pairs : List (τ × Json τ)} {m : τ × Json τ}
    (h : m ∈ pairs.foldl (fun members (name, value) ↦ insert name value members) ms) :
    m ∈ ms ∨ m ∈ pairs := by
  induction pairs generalizing ms with
  | nil => exact .inl h
  | cons pair pairs ih =>
    rcases ih h with h | h
    · exact (eq_or_mem_of_mem_insert h).elim (fun h ↦ .inr (h ▸ List.mem_cons_self)) .inl
    · exact .inr (List.mem_cons_of_mem pair h)

/-- An object has no members but those that it was given. -/
theorem mem_of_mem_ofPairs {pairs : List (τ × Json τ)} {m : τ × Json τ}
    (h : m ∈ (ofPairs pairs).members) : m ∈ pairs :=
  (mem_or_mem_of_mem_foldl h).resolve_left List.not_mem_nil

/-! ### Numbers that are read -/

/-- A value that is a number is of the format. -/
theorem Denotes.isSound_value (h : Denotes cs (.value v)) : v.IsSound := by
  rintro x rfl
  generalize hv : Json.number x = v at h
  cases h with
  | number h =>
    cases hv
    cases h <;> exact Binary64.isFormat_ofDecimal _ _ _
  | null | true | false | string | emptyArray | array | object => cases hv

theorem Denotes.isSound_member {m : τ × Json τ} (h : Denotes cs (.member m)) : m.2.IsSound := by
  cases h with
  | member _ _ _ h =>
    cases h with
    | element _ h _ => exact h.isSound_value

theorem Denotes.isSound_members {ms : List (τ × Json τ)} (h : Denotes cs (.members ms)) :
    ∀ m ∈ ms, m.2.IsSound := by
  generalize hp : Phrase.members ms = p at h
  induction h generalizing ms with
  | lastMember h =>
    cases hp
    exact List.forall_mem_singleton.2 h.isSound_member
  | moreMembers h _ _ ih =>
    cases hp
    exact List.forall_mem_cons.2 ⟨h.isSound_member, ih rfl⟩
  | _ => cases hp

/-- **All numbers among the members of an object that is read are of the format.** -/
theorem isSound_of_parse? {text : String} (h : parse? text τ = some v) :
    ∀ m ∈ v.members, m.2.IsSound := by
  rw [parse?_eq_some_iff] at h
  generalize text.toList = cs at h
  cases h with
  | element _ h _ =>
    intro m hm
    cases h with
    | object h =>
      have hpair := mem_of_mem_ofPairs hm
      cases h with
      | emptyBraces => exact absurd hpair List.not_mem_nil
      | braces h => exact h.isSound_members m hpair
    | null | true | false | number | string | emptyArray | array => exact absurd hm List.not_mem_nil

end IndexSnapshot.Json
