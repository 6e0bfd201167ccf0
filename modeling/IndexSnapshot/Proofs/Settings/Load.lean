import IndexSnapshot.Proofs.Json.Acceptance
import IndexSnapshot.Proofs.Settings.Given
import Mathlib.Data.Bool.AllAny

/-!
# What a settings file gives

Every text of the settings file gives settings, and nothing in it can make them ill-formed
(`Store.read_of_text`). If the text is an object, each setting has the last value that is given
under its name, or its default if this value is of another kind or there is none; values under other
names make no difference. A string is what its escapes denote unit by unit, be they halves of
surrogate pairs. Any other text gives the defaults, and it is told of if it is no JSON text at all.
-/

namespace IndexSnapshot

open Json (Phrase Denotes IsBlank)
open Text (Encoded)

namespace Settings

variable {text : String} {v : Json Utf16} {cs : List Char}

/-! ### Settings as an object -/

/-- The members are settings: each has the name of a setting and a value of its kind, none is there
twice, and only `keepRecent` may be absent. -/
structure AreSettings (members : List (Utf16 × Json Utf16)) : Prop where
  nodup : (members.map Prod.fst).Nodup
  kind : ∀ m ∈ members, ∃ key : SettingKey,
    m.1 = Encoded.ofString key.name ∧ (valueFor? key m.2).isSome = true
  complete : ∀ key : SettingKey, key ≠ .keepRecent →
    Encoded.ofString key.name ∈ members.map Prod.fst

theorem valueFor?_toJson {key : SettingKey} {v : SettingValue Utf16} (h : v.kind = key.kind) :
    valueFor? key v.toJson = some v := by
  have hvalue : SettingValue.ofJson? v.toJson = some v := by cases v <;> rfl
  rw [valueFor?, hvalue]
  exact Option.filter_some_pos (decide_eq_true h)

theorem areSettings_members (s : Settings Utf16) : AreSettings s.members where
  nodup := nodup_names_members s
  kind m hm := by
    obtain ⟨key, v, hv, rfl⟩ := exists_of_mem_members hm
    exact ⟨key, rfl, Option.isSome_iff_exists.2 ⟨v, valueFor?_toJson (kind_of_get? hv)⟩⟩
  complete key hkey := by
    obtain ⟨v, hv⟩ : ∃ v, s.get? key = some v := by
      cases key with
      | keepRecent => exact absurd rfl hkey
      | simpleBase | packageBase | concurrentResolve | requestTimeout | logLevel | bqQuery
      | debug =>
        exact ⟨_, rfl⟩
    exact List.mem_map.2 ⟨(Encoded.ofString key.name, v.toJson),
      List.mem_filterMap.2 ⟨key, SettingKey.mem_fileOrder key, by rw [hv]; rfl⟩, rfl⟩

/-! ### Texts of the file -/

/-- The text of the file denotes the phrase, with blanks around it and at most one byte order mark
before all. -/
def Gives (text : String) (p : Phrase Utf16) : Prop :=
  ∃ mark pre cs post, text.toList = mark ++ (pre ++ (cs ++ post)) ∧
    (mark = [] ∨ mark = ['\ufeff']) ∧ IsBlank pre ∧ IsBlank post ∧ Denotes cs p

theorem dropByteOrderMark_of_cons (h : text.toList = '\ufeff' :: cs) :
    dropByteOrderMark text = String.ofList cs := by
  rw [dropByteOrderMark, h]
  rfl

/-- No byte order mark stands at the front of a value. -/
theorem dropByteOrderMark_of_denotes (h : Denotes text.toList (.element v)) :
    dropByteOrderMark text = text := by
  rw [dropByteOrderMark]
  split
  · rename_i heq
    obtain ⟨d, tail, hfront, hd⟩ := h.skipSpace_element []
    rw [heq, List.cons_append, Json.skipSpace_cons (by decide)] at hfront
    exact absurd (List.cons_eq_cons.1 hfront).1.symm (hd.ne (by decide))
  · rfl

/-- **A file is read as the value that its text gives.** -/
theorem gives_value_iff :
    Gives text (.value v) ↔ Json.parse? (dropByteOrderMark text) Utf16 = some v := by
  rw [Json.parse?_eq_some_iff]
  constructor
  · rintro ⟨mark, pre, cs, post, htext, hmark, hpre, hpost, h⟩
    have helement := Denotes.element hpre h hpost
    rcases hmark with rfl | rfl
    · rw [List.nil_append] at htext
      rw [← htext] at helement
      rwa [dropByteOrderMark_of_denotes helement]
    · rwa [dropByteOrderMark_of_cons htext, String.toList_ofList]
  · intro h
    obtain ⟨mark, hmark, htext⟩ : ∃ mark, (mark = [] ∨ mark = ['\ufeff']) ∧
        text.toList = mark ++ (dropByteOrderMark text).toList := by
      rw [dropByteOrderMark]
      split
      · rename_i cs hcs
        exact ⟨['\ufeff'], .inr rfl, by rw [hcs, String.toList_ofList]; rfl⟩
      · exact ⟨[], .inl rfl, rfl⟩
    generalize (dropByteOrderMark text).toList = body at h htext
    cases h with
    | element hpre h hpost => exact ⟨mark, _, _, _, htext, hmark, hpre, hpost, h⟩

theorem Gives.of_object {pairs : List (Utf16 × Json Utf16)} (h : Gives text (.object pairs)) :
    Gives text (.value (Json.ofPairs pairs)) := by
  obtain ⟨mark, pre, cs, post, htext, hmark, hpre, hpost, h⟩ := h
  exact ⟨mark, pre, cs, post, htext, hmark, hpre, hpost, .object h⟩

/-- An object is given by its names and values. -/
theorem Gives.exists_pairs {members : List (Utf16 × Json Utf16)}
    (h : Gives text (.value (.object members))) : ∃ pairs, Gives text (.object pairs) := by
  obtain ⟨mark, pre, cs, post, htext, hmark, hpre, hpost, h⟩ := h
  generalize hv : Json.object members = v at h
  cases h with
  | object h => exact ⟨_, mark, pre, cs, post, htext, hmark, hpre, hpost, h⟩
  | null | true | false | number | string | emptyArray | array => cases hv

namespace Store

theorem read_of_gives (h : Gives text (.value v)) :
    read (some text) = defaults.overlay (changes v) := by
  rw [read, gives_value_iff.1 h]

theorem isBroken_iff : isBroken (some text) = true ↔ ∀ v, ¬ Gives text (.value v) := by
  rw [isBroken, Option.isNone_iff_eq_none, Option.eq_none_iff_forall_not_mem]
  exact forall_congr' fun v ↦ not_congr gives_value_iff.symm

/-- What is no object gives the defaults. -/
theorem read_eq_defaults (h : ∀ pairs, ¬ Gives text (.object pairs)) :
    read (some text) = defaults := by
  rw [read]
  split
  · rename_i v hv
    cases v with
    | object members =>
      obtain ⟨pairs, hpairs⟩ := (gives_value_iff.2 hv).exists_pairs
      exact absurd hpairs (h pairs)
    | null | bool | number | string | array => rfl
  · rfl

/-- **What a settings file gives, whatever its text.** -/
theorem read_of_text (text : String) :
    AreSettings (read (some text)).members ∧
      (∀ pairs, Gives text (.object pairs) → ∀ key, (read (some text)).get? key =
        ((Json.lastValue? pairs (Encoded.ofString key.name)).bind (valueFor? key)).or
          (defaults.get? key)) ∧
      ((∀ pairs, ¬ Gives text (.object pairs)) → read (some text) = defaults) ∧
      ((∃ v, Gives text (.value v)) → complaint (some text) = "") ∧
      ((∀ v, ¬ Gives text (.value v)) →
        complaint (some text) = loadComplaint ++ " <error>\n") := by
  refine ⟨areSettings_members _, fun pairs hpairs key ↦ ?_, read_eq_defaults, ?_, fun hnone ↦ ?_⟩
  · rw [read_of_gives hpairs.of_object]
    exact get?_overlay_ofPairs defaults pairs key
  · rintro ⟨v, hv⟩
    exact if_neg fun hbroken ↦ isBroken_iff.1 hbroken v hv
  · exact if_pos (isBroken_iff.2 hnone)

/-- A file with a byte order mark, a name that is given twice, a value of another kind and half of a
surrogate pair. -/
def sampleFile : String :=
  "\ufeff\x7b \"debug\":null, \"bqQuery\":true,\"bqQuery\":[], \"debug\":true, " ++
    "\"logLevel\":\"\\ud800!\"\x7d\n"

def samplePairs : List (Utf16 × Json Utf16) :=
  [(Encoded.ofString "debug", .null), (Encoded.ofString "bqQuery", .bool true),
    (Encoded.ofString "bqQuery", .array []), (Encoded.ofString "debug", .bool true),
    (Encoded.ofString "logLevel", .string [0xd800, 0x21])]

theorem gives_sampleFile : Gives sampleFile (.object samplePairs) := by
  have hblank : IsBlank [] := List.forall_mem_nil _
  have hspace : IsBlank [' '] := by simp [IsBlank, Json.isSpace]
  have hdebug := Json.denotesString_of_forall (s := "debug".toList)
    (List.all_iff_forall_prop.1 (by decide))
  have hquery := Json.denotesString_of_forall (s := "bqQuery".toList)
    (List.all_iff_forall_prop.1 (by decide))
  have hname := Json.denotesString_of_forall (s := "logLevel".toList)
    (List.all_iff_forall_prop.1 (by decide))
  have hunit : Json.IsUnit ['d', '8', '0', '0'] 0xd800 := ⟨rfl, by decide⟩
  have hlevel : Json.DenotesString "\\ud800!".toList [0xd800, 0x21] :=
    .numbered hunit (.plain (c := '!') (by decide) (by decide) (by decide) .nil)
  exact ⟨['\ufeff'], [], _, ['\n'], rfl, .inr rfl, hblank, by simp [IsBlank, Json.isSpace],
    .braces (.moreMembers (.member hspace hdebug hblank (.element hblank .null hblank))
      (.moreMembers (.member hspace hquery hblank (.element hblank .true hblank))
        (.moreMembers (.member hblank hquery hblank (.element hblank (.emptyArray hblank) hblank))
          (.moreMembers (.member hspace hdebug hblank (.element hblank .true hblank))
            (.lastMember (.member hspace hname hblank
              (.element hblank (.string hlevel) hblank)))))))⟩

theorem read_of_text_sampleFile :
    (read (some sampleFile)).get? .debug = some (.flag true) ∧
      (read (some sampleFile)).get? .bqQuery = some (.flag false) ∧
      (read (some sampleFile)).get? .logLevel = some (.text [0xd800, 0x21]) ∧
      (read (some sampleFile)).get? .keepRecent = none ∧ complaint (some sampleFile) = "" :=
  have h := read_of_text sampleFile
  ⟨h.2.1 samplePairs gives_sampleFile .debug, h.2.1 samplePairs gives_sampleFile .bqQuery,
    h.2.1 samplePairs gives_sampleFile .logLevel, h.2.1 samplePairs gives_sampleFile .keepRecent,
    h.2.2.2.1 ⟨_, gives_sampleFile.of_object⟩⟩

end Store

end Settings

end IndexSnapshot
