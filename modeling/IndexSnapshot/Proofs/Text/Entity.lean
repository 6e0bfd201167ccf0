import IndexSnapshot.Text.Entity
import Mathlib.Data.List.Basic
import Mathlib.Data.List.Induction

/-!
# Entities in one pass

Replacing one entity after the other comes to the same as one pass from left to right that never
looks at what it has put in (`foldl_replaceEntity`). Two things make it so. No name of an entity
holds an ampersand or a character that an earlier entity stands for, so that no replacement
completes or breaks an occurrence of a later one; and only the entity that is replaced last stands
for an ampersand, so that none begins one.
-/

namespace IndexSnapshot.Text

/-- The text with the entities of a table replaced in one pass from left to right: the pass goes on
behind the entity, and what has been put in is not looked at again. -/
def decodeOnce (table : List (String × Char)) : List Char → List Char
  | [] => []
  | c :: cs =>
    match if c = '&' then table.find? fun e ↦ e.1.toList.isPrefixOf cs else none with
    | some (name, meaning) => meaning :: decodeOnce table (cs.drop name.toList.length)
    | none => c :: decodeOnce table cs
termination_by cs => cs.length
decreasing_by
  · simp only [List.length_cons, List.length_drop]; omega
  · simp only [List.length_cons]; omega

variable {table : List (String × Char)} {name word cs rest : List Char} {c meaning : Char}

/-! ### Steps of one pass -/

theorem decodeOnce_nil : decodeOnce table [] = [] := by rw [decodeOnce]

theorem decodeOnce_cons_of_ne (h : c ≠ '&') (cs : List Char) :
    decodeOnce table (c :: cs) = c :: decodeOnce table cs := by
  rw [decodeOnce, if_neg h]

theorem decodeOnce_of_find?_eq_none (h : table.find? (fun e ↦ e.1.toList.isPrefixOf cs) = none) :
    decodeOnce table ('&' :: cs) = '&' :: decodeOnce table cs := by
  rw [decodeOnce, if_pos rfl, h]

theorem decodeOnce_of_find?_eq_some {e : String × Char}
    (h : table.find? (fun e ↦ e.1.toList.isPrefixOf cs) = some e) :
    decodeOnce table ('&' :: cs) = e.2 :: decodeOnce table (cs.drop e.1.toList.length) := by
  rw [decodeOnce, if_pos rfl, h]

/-- Text without ampersands is passed over. -/
theorem decodeOnce_append (h : '&' ∉ word) (rest : List Char) :
    decodeOnce table (word ++ rest) = word ++ decodeOnce table rest := by
  induction word with
  | nil => rfl
  | cons c word ih =>
    rw [List.mem_cons, not_or] at h
    rw [List.cons_append, decodeOnce_cons_of_ne (Ne.symm h.1), ih h.2, List.cons_append]

/-- **A pass makes no words** but with the characters that it puts in. -/
theorem prefix_of_prefix_decodeOnce (hword : '&' ∉ word) (hmeaning : ∀ e ∈ table, e.2 ∉ word)
    (h : word <+: decodeOnce table cs) : word <+: cs := by
  induction word generalizing cs with
  | nil => exact List.nil_prefix
  | cons d word ih =>
    rw [List.mem_cons, not_or] at hword
    match cs with
    | [] =>
      rw [decodeOnce_nil] at h
      exact absurd (List.prefix_nil.1 h) (List.cons_ne_nil d word)
    | c :: cs =>
      -- the first character of the word was not put in, nor is it an ampersand
      have hkept : c ≠ '&' := by
        rintro rfl
        rcases hfind : table.find? (fun e ↦ e.1.toList.isPrefixOf cs) with _ | e
        · rw [decodeOnce_of_find?_eq_none hfind, List.cons_prefix_cons] at h
          exact hword.1 h.1.symm
        · rw [decodeOnce_of_find?_eq_some hfind, List.cons_prefix_cons] at h
          exact hmeaning e (List.mem_of_find?_eq_some hfind) (h.1 ▸ List.mem_cons_self)
      rw [decodeOnce_cons_of_ne hkept, List.cons_prefix_cons] at h
      refine List.cons_prefix_cons.2 ⟨h.1, ih hword.2 (fun e he hmem ↦ ?_) h.2⟩
      exact hmeaning e he (List.mem_cons_of_mem d hmem)

/-! ### Replacing one entity -/

theorem replaceEntity_nil : replaceEntity name meaning [] = [] := by rw [replaceEntity]

theorem replaceEntity_cons_of_ne (h : c ≠ '&') (cs : List Char) :
    replaceEntity name meaning (c :: cs) = c :: replaceEntity name meaning cs := by
  rw [replaceEntity, if_neg fun hc ↦ h hc.1]

/-- Text without ampersands is passed over. -/
theorem replaceEntity_append_of_not_mem (h : '&' ∉ word) (rest : List Char) :
    replaceEntity name meaning (word ++ rest) = word ++ replaceEntity name meaning rest := by
  induction word with
  | nil => rfl
  | cons c word ih =>
    rw [List.mem_cons, not_or] at h
    rw [List.cons_append, replaceEntity_cons_of_ne (Ne.symm h.1), ih h.2, List.cons_append]

theorem replaceEntity_append (name rest : List Char) :
    replaceEntity name meaning ('&' :: (name ++ rest)) =
      meaning :: replaceEntity name meaning rest := by
  rw [replaceEntity, if_pos ⟨rfl, List.isPrefixOf_iff_prefix.2 (List.prefix_append name rest)⟩,
    List.drop_left]

theorem replaceEntity_of_not_isPrefix (h : ¬ name <+: cs) :
    replaceEntity name meaning ('&' :: cs) = '&' :: replaceEntity name meaning cs := by
  rw [replaceEntity, if_neg fun hc ↦ h (List.isPrefixOf_iff_prefix.1 hc.2)]

theorem replaceEntity_of_not_mem (h : '&' ∉ cs) : replaceEntity name meaning cs = cs := by
  simpa [replaceEntity_nil] using replaceEntity_append_of_not_mem h []

theorem decodeEntities_of_not_mem (h : '&' ∉ cs) : decodeEntities cs = cs := by
  simp only [decodeEntities, entities, List.foldl_cons, List.foldl_nil, replaceEntity_of_not_mem h]

/-! ### One pass for another -/

/-- **One entity more is a pass more**: a further entity may be replaced after the pass for a table,
if the table stands neither for ampersands nor for characters of its name. -/
theorem replaceEntity_decodeOnce {name : String} (hname : '&' ∉ name.toList)
    (htable : ∀ e ∈ table, e.2 ≠ '&' ∧ e.2 ∉ name.toList) (cs : List Char) :
    replaceEntity name.toList meaning (decodeOnce table cs) =
      decodeOnce (table ++ [(name, meaning)]) cs := by
  fun_induction decodeOnce table cs with
  | case1 => rw [decodeOnce_nil, replaceEntity_nil]
  | case2 c cs name' meaning' hfound ih =>
    -- an entity of the table: what it stands for begins no entity
    obtain ⟨rfl, hfind⟩ : c = '&' ∧ table.find? (fun e ↦ e.1.toList.isPrefixOf cs) =
        some (name', meaning') := by
      split at hfound
      · exact ⟨‹_›, hfound⟩
      · exact absurd hfound (Option.some_ne_none _).symm
    have hold : (table ++ [(name, meaning)]).find? (fun e ↦ e.1.toList.isPrefixOf cs) =
        some (name', meaning') := by rw [List.find?_append, hfind, Option.some_or]
    rw [replaceEntity_cons_of_ne (htable _ (List.mem_of_find?_eq_some hfind)).1, ih,
      decodeOnce_of_find?_eq_some hold]
  | case3 c cs hnone ih =>
    by_cases hc : c = '&'
    · rw [dif_pos hc] at hnone
      subst hc
      by_cases hprefix : name.toList <+: cs
      · -- the further entity: the pass for the table has left it as it was
        obtain ⟨rest, rfl⟩ := hprefix
        have hnew : (table ++ [(name, meaning)]).find?
            (fun e ↦ e.1.toList.isPrefixOf (name.toList ++ rest)) = some (name, meaning) := by
          rw [List.find?_append, hnone, Option.none_or]
          exact List.find?_cons_of_pos
            (List.isPrefixOf_iff_prefix.2 (List.prefix_append name.toList rest))
        rw [decodeOnce_append hname, decodeOnce_append hname,
          replaceEntity_append_of_not_mem hname] at ih
        rw [decodeOnce_append hname, replaceEntity_append, List.append_cancel_left ih,
          decodeOnce_of_find?_eq_some hnew, List.drop_left]
      · have hnew :
            (table ++ [(name, meaning)]).find? (fun e ↦ e.1.toList.isPrefixOf cs) = none := by
          rw [List.find?_append, hnone, Option.none_or]
          exact List.find?_cons_of_neg fun h ↦ hprefix (List.isPrefixOf_iff_prefix.1 h)
        have hpass : ¬ name.toList <+: decodeOnce table cs := fun h ↦
          hprefix (prefix_of_prefix_decodeOnce hname (fun e he ↦ (htable e he).2) h)
        rw [replaceEntity_of_not_isPrefix hpass, ih, decodeOnce_of_find?_eq_none hnew]
    · rw [replaceEntity_cons_of_ne hc, ih, decodeOnce_cons_of_ne hc]

/-- **Entities may be replaced one after the other** when none stands for the ampersand, or for a
character in the name, of a later one. -/
theorem foldl_replaceEntity (hname : ∀ e ∈ table, '&' ∉ e.1.toList)
    (htable : table.Pairwise fun d e ↦ d.2 ≠ '&' ∧ d.2 ∉ e.1.toList) (cs : List Char) :
    table.foldl (fun cs (name, meaning) ↦ replaceEntity name.toList meaning cs) cs =
      decodeOnce table cs := by
  induction table using List.reverseRecOn with
  | nil =>
    induction cs with
    | nil => rw [decodeOnce_nil, List.foldl_nil]
    | cons c cs ih =>
      rw [decodeOnce, List.find?_nil, ite_self, ← ih, List.foldl_nil, List.foldl_nil]
  | append_singleton table e ih =>
    obtain ⟨htable, -, hlast⟩ := List.pairwise_append.1 htable
    have ih := ih (fun d hd ↦ hname d (List.mem_append_left _ hd)) htable
    rw [List.foldl_append, ih, List.foldl_cons, List.foldl_nil]
    exact replaceEntity_decodeOnce (hname e (by simp)) (fun d hd ↦ hlast d hd e (by simp)) cs

/-! ### Escaping -/

/-- A character as it is written where markup would give it a meaning. -/
def escapeChar : Char → List Char
  | '&' => "&amp;".toList
  | '<' => "&lt;".toList
  | '>' => "&gt;".toList
  | '"' => "&quot;".toList
  | '\'' => "&#39;".toList
  | c => [c]

/-- The text with an entity for each character that markup gives a meaning to. -/
def escape (cs : List Char) : List Char := cs.flatMap escapeChar

/-- An entity is read off the front. -/
theorem decodeOnce_escapeChar_append (c : Char) (cs : List Char) :
    decodeOnce entities (escapeChar c ++ cs) = c :: decodeOnce entities cs := by
  unfold escapeChar
  split
  · exact decodeOnce_of_find?_eq_some (e := ("amp;", '&')) rfl
  · exact decodeOnce_of_find?_eq_some (e := ("lt;", '<')) rfl
  · exact decodeOnce_of_find?_eq_some (e := ("gt;", '>')) rfl
  · exact decodeOnce_of_find?_eq_some (e := ("quot;", '"')) rfl
  · exact decodeOnce_of_find?_eq_some (e := ("#39;", '\'')) rfl
  · rename_i hamp _ _ _ _
    exact decodeOnce_cons_of_ne hamp cs

theorem decodeOnce_escape (cs : List Char) : decodeOnce entities (escape cs) = cs := by
  induction cs with
  | nil => exact decodeOnce_nil
  | cons c cs ih =>
    rw [escape] at ih
    rw [escape, List.flatMap_cons, decodeOnce_escapeChar_append, ih]

/-- **Entities are decoded exactly once**: replacing the five of them one after the other is one
pass from left to right, so that decoding gives back every text that was escaped, however often. -/
theorem decodeEntities_eq_decodeOnce :
    (∀ cs, decodeEntities cs = decodeOnce entities cs) ∧
      ∀ cs, decodeEntities (escape cs) = cs := by
  have honce : ∀ cs, decodeEntities cs = decodeOnce entities cs :=
    foldl_replaceEntity (by decide) (by decide)
  exact ⟨honce, fun cs ↦ by rw [honce, decodeOnce_escape]⟩

example : decodeEntities "&am&#39;p;&amp;amp;lt;".toList = "&am'p;&amp;lt;".toList := by
  decide +kernel

end IndexSnapshot.Text
