import IndexSnapshot.Log.Line
import IndexSnapshot.Proofs.Json.Compact
import IndexSnapshot.Proofs.Json.Nesting
import IndexSnapshot.Proofs.Settings.Given

/-!
# Fields behind a line

Fields whose values are texts, truth values, `null` or integers of the exact range stand behind a
line as a text that breaks no line and tells them again (`Log.Tells`): it is read as the object of
their last values, in the order that an object gives its members.

Where the fields begin is told by the line as a whole. Whatever the line and the values hold, there
is one blank only behind which all that follows is an object (`Log.tells_withFields`).
-/

namespace IndexSnapshot

open Text (IsClear)

namespace Json

variable {v : Json} {fields : List (String × Json)} {name : String}

/-- The value is `null`, a truth value, a text, or an integer of the exact range, be it a negative
zero. -/
inductive IsBasic : Json → Prop
  | null : IsBasic null
  | bool (b : Bool) : IsBasic (bool b)
  | string (s : String) : IsBasic (string s)
  | number {n : Binary64} (h : n.IsSafeInteger) : IsBasic (number n)
  | negZero : IsBasic (number .negZero)

/-- The value without the sign that a zero may have. -/
def unsigned : Json → Json
  | number .negZero => number (.finite 0)
  | v => v

theorem IsBasic.isScalar (h : v.IsBasic) : v.IsScalar = true := by
  cases h <;> rfl

theorem IsBasic.isSound (h : v.IsBasic) : v.IsSound := by
  rintro n rfl
  cases h with
  | number h => exact h.isFormat
  | negZero => exact .negZero

/-- All of a basic value is kept but the sign of a zero. -/
theorem IsBasic.kept_eq (h : v.IsBasic) : v.kept = v.unsigned := by
  cases h with
  | number h =>
    obtain ⟨k, -, rfl⟩ := h
    rfl
  | null | bool | string | negZero => rfl

theorem areRows_members_ofPairs (h : ∀ field ∈ fields, field.2.IsBasic) :
    AreRows (ofPairs fields).members := fun m hm ↦
  have hbasic := h m (mem_of_mem_ofPairs hm)
  ⟨hbasic.isScalar, hbasic.isSound⟩

theorem members_ofPairs_ne_nil (h : fields ≠ []) : (ofPairs fields).members ≠ [] := by
  obtain ⟨init, last, rfl⟩ := (List.eq_nil_or_concat' fields).resolve_left h
  intro hnil
  have hlookup := lookup_insert_self last.1 last.2 (ofPairs init).members
  rw [← members_ofPairs_append, hnil] at hlookup
  cases hlookup

/-- The value that a name is given is among the fields. -/
theorem exists_mem_of_lastValue? (h : lastValue? fields name = some v) :
    ∃ field ∈ fields, field.2 = v := by
  obtain ⟨before, behind, hfields, -⟩ := List.lookup_eq_some_iff.1 h
  refine ⟨(name, v), List.mem_reverse.1 ?_, rfl⟩
  rw [hfields]
  exact List.mem_append_right before List.mem_cons_self

/-- The text is that of an object, without blanks before it. -/
structure IsObjectText (text : String) : Prop where
  head : text.toList.head? = some '\x7b'
  isSome : (parse? text Utf16).isSome = true

/-- An object text without blanks behind it denotes the parts of an object. -/
theorem IsObjectText.exists_denotes {text : String} (h : IsObjectText text)
    (hlast : text.toList.getLast? = some '\x7d') :
    ∃ pairs : List (Utf16 × Json Utf16), Denotes text.toList (.object pairs) := by
  obtain ⟨hhead, hparse⟩ := h
  obtain ⟨v, hv⟩ := Option.isSome_iff_exists.1 hparse
  rw [parse?_eq_some_iff] at hv
  generalize text.toList = cs at hhead hlast hv
  cases hv with
  | @element pre body post v hpre hbody hpost =>
    obtain rfl : pre = [] := by
      cases pre with
      | nil => rfl
      | cons c pre =>
        obtain rfl : c = '\x7b' := Option.some.inj hhead
        exact absurd (hpre _ List.mem_cons_self) (by decide)
    obtain rfl : post = [] := by
      rcases List.eq_nil_or_concat' post with rfl | ⟨post, c, rfl⟩
      · rfl
      · have hc : c = '\x7d' := by simpa using hlast
        exact absurd (hpost c (by simp)) (by rw [hc]; decide)
    rw [List.nil_append, List.append_nil] at hhead ⊢
    cases hbody with
    | object h => exact ⟨_, h⟩
    | number h =>
      obtain ⟨d, tail, rfl, hd⟩ := h.exists_cons
      obtain rfl : d = '\x7b' := Option.some.inj hhead
      exact absurd hd (by decide)
    | null | true | false | string | emptyArray | array => cases hhead

end Json

namespace Log

open Json (lastValue? IsObjectText)

variable {fields : List (String × Json)}

/-- A text tells fields. -/
structure Tells (fields : List (String × Json)) (text : String) : Prop where
  /-- There is no control in it, and so no line break. -/
  isClear : IsClear text.toList
  /-- It is read as the object of the last values that names are given, the names being arranged as
  in an object. -/
  exists_members : ∃ members, Json.parse? text = some (.object members) ∧
    Json.Arranged (fields.map Prod.fst) (members.map Prod.fst) ∧
    ∀ name, members.lookup name = (lastValue? fields name).map Json.unsigned

theorem tells_compact (hne : fields ≠ []) (hbasic : ∀ field ∈ fields, field.2.IsBasic) :
    Tells fields (Json.ofPairs fields).compact := by
  have hrows := Json.areRows_members_ofPairs hbasic
  have harranged := Json.arranged_members_ofPairs fields
  refine ⟨Json.isClear_compact hrows, Json.keptMembers (Json.ofPairs fields).members,
    Json.parse?_compact (Json.members_ofPairs_ne_nil hne) hrows harranged.isOrdered, ?_,
    fun name ↦ ?_⟩
  · rwa [Json.map_fst_keptMembers]
  · rw [Json.lookup_keptMembers, Json.lookup_members_ofPairs]
    refine Option.map_congr fun v hv ↦ ?_
    obtain ⟨field, hmem, rfl⟩ := Json.exists_mem_of_lastValue? hv
    exact (hbasic field hmem).kept_eq

theorem withFields_of_ne_nil (line : String) (hne : fields ≠ []) :
    withFields line fields = line ++ " " ++ (Json.ofPairs fields).compact := by
  cases fields with
  | nil => exact absurd rfl hne
  | cons field fields => rfl

/-- A text that denotes an object is read, whatever its strings are. -/
theorem isSome_parse?_of_denotes {text : String} {pairs : List (String × Json)}
    (h : Json.Denotes text.toList (.object pairs)) : (Json.parse? text Utf16).isSome = true := by
  obtain ⟨pairs', hpairs⟩ := h.isPhrase
  have hnone : Json.IsBlank [] := List.forall_mem_nil _
  have helement := Json.Denotes.element hnone (.object hpairs) hnone
  rw [List.nil_append, List.append_nil] at helement
  exact Option.isSome_iff_exists.2 ⟨_, Json.parse?_eq_some_iff.2 helement⟩

/-- Two texts before a blank and an object are the same if all of it is the same. -/
theorem eq_of_isObjectText {line front text rest : String} {pairs : List (String × Json)}
    (hdenotes : Json.Denotes text.toList (.object pairs)) (hrest : IsObjectText rest)
    (heq : line ++ " " ++ text = front ++ " " ++ rest) : front = line ∧ rest = text := by
  have heq : line.toList ++ ' ' :: text.toList = front.toList ++ ' ' :: rest.toList := by
    have := congrArg String.toList heq
    simpa using this
  have hlast : rest.toList.getLast? = some '\x7d' := by
    have hne : rest.toList ≠ [] := fun hnil ↦ by
      have hhead := hrest.head
      rw [hnil] at hhead
      cases hhead
    obtain ⟨inner, htext, -⟩ := hdenotes.exists_inner
    have hend : (front.toList ++ [' '] ++ rest.toList).getLast? = some '\x7d' := by
      rw [List.append_assoc, List.singleton_append, ← heq, htext, ← List.cons_append,
        ← List.cons_append, ← List.append_assoc]
      exact List.getLast?_concat
    rwa [List.getLast?_append_of_ne_nil _ hne] at hend
  obtain ⟨pairs', hdenotes'⟩ := hrest.exists_denotes hlast
  obtain ⟨hfront, htext⟩ := Json.eq_of_append_blank hdenotes hdenotes' heq
  exact ⟨String.toList_inj.1 hfront.symm, String.toList_inj.1 htext.symm⟩

/-- **Fields behind a line are told, and where they begin is certain.** Without fields the line
stays as it is. -/
theorem tells_withFields (line : String) (hne : fields ≠ [])
    (hbasic : ∀ field ∈ fields, field.2.IsBasic) :
    withFields line [] = line ∧ ∃ text, withFields line fields = line ++ " " ++ text ∧
      Tells fields text ∧ IsObjectText text ∧
      ∀ front rest, withFields line fields = front ++ " " ++ rest → IsObjectText rest →
        front = line ∧ rest = text := by
  have htells := tells_compact hne hbasic
  have hdenotes := Json.denotes_compact (Json.members_ofPairs_ne_nil hne)
    (Json.areRows_members_ofPairs hbasic)
  have hobject : IsObjectText (Json.ofPairs fields).compact := by
    refine ⟨?_, isSome_parse?_of_denotes hdenotes⟩
    rw [show Json.ofPairs fields = .object (Json.ofPairs fields).members from rfl,
      Json.toList_compact_object]
    rfl
  refine ⟨rfl, _, withFields_of_ne_nil line hne, htells, hobject, fun front rest heq hrest ↦ ?_⟩
  rw [withFields_of_ne_nil line hne] at heq
  exact eq_of_isObjectText hdenotes hrest heq

/-- Fields with indices among their names, a name that is given twice, and a text that looks like
the end of a line and the beginning of fields. -/
def sampleFields : List (String × Json) :=
  [("10", .string "a\n \x7b\"b\":1\x7d"), ("name", .string "\\"),
    ("2", .number (.finite (-7 * Binary64.one))), ("name", .null), ("zero", .number .negZero),
    ("ok", .bool true)]

theorem isBasic_of_mem_sampleFields : ∀ field ∈ sampleFields, field.2.IsBasic := by
  have hsafe : (Binary64.finite (-7 * Binary64.one)).IsSafeInteger := ⟨-7, by decide, rfl⟩
  simp only [sampleFields, List.forall_mem_cons]
  exact ⟨.string _, .string _, .number hsafe, .null, .negZero, .bool _, List.forall_mem_nil _⟩

theorem tells_withFields_sampleFields :
    sampleFields ≠ [] ∧ (∀ field ∈ sampleFields, field.2.IsBasic) ∧
      withFields "a line \x7b" [] = "a line \x7b" ∧ ∃ text,
        withFields "a line \x7b" sampleFields = "a line \x7b" ++ " " ++ text ∧
        Tells sampleFields text ∧ IsObjectText text ∧
        ∀ front rest, withFields "a line \x7b" sampleFields = front ++ " " ++ rest →
          IsObjectText rest → front = "a line \x7b" ∧ rest = text := by
  have hne : sampleFields ≠ [] := List.cons_ne_nil _ _
  exact ⟨hne, isBasic_of_mem_sampleFields,
    tells_withFields "a line \x7b" hne isBasic_of_mem_sampleFields⟩

example : withFields "a line \x7b" sampleFields = "a line \x7b " ++
    "\x7b\"2\":-7,\"10\":\"a\\n \x7b\\\"b\\\":1\x7d\",\"name\":null,\"zero\":0," ++
    "\"ok\":true\x7d" := by
  decide +kernel

end Log

end IndexSnapshot
