import IndexSnapshot.Proofs.Json.Tokens

/-!
# What is read as JSON

The reader accepts the texts that the grammar has, and no others, and what it reads is what they
denote (`parse?_eq_some_iff`). Nothing it reads is made up (`readsSoundly`), by induction on its
steps; and what the grammar has is read whatever stands behind it (`isRead_of_denotes`), by
induction on the grammar, as long as there are two steps for each character.
-/

namespace IndexSnapshot.Json

open Text (Encoded)

variable {τ : Type} [DecidableEq τ] [Encoded τ]
variable {cs rest gap post : List Char} {v : Json τ} {vs : List (Json τ)} {m : τ × Json τ}
  {ms pairs : List (τ × Json τ)} {p : Phrase τ} {x : Binary64} {steps : ℕ} {text : String}

/-! ### Blanks -/

theorem skipSpace_append (hgap : IsBlank gap) (cs : List Char) :
    skipSpace (gap ++ cs) = skipSpace cs :=
  List.dropWhile_append_of_pos hgap

theorem skipSpace_cons {c : Char} (hc : isSpace c = false) (cs : List Char) :
    skipSpace (c :: cs) = c :: cs :=
  List.dropWhile_cons_of_neg (by simp [hc])

theorem endsNumeral_cons {c : Char} (h : c.isDigit = false ∧ c ≠ '.' ∧ c ≠ 'e' ∧ c ≠ 'E')
    (cs : List Char) : EndsNumeral (c :: cs) := fun d hd ↦ by
  obtain rfl := Option.some.inj hd
  exact h

/-- No numeral goes on with a blank. -/
theorem endsNumeral_append (hpost : IsBlank post) (hrest : EndsNumeral rest) :
    EndsNumeral (post ++ rest) := by
  cases post with
  | nil => exact hrest
  | cons c cs =>
    have hc := hpost c List.mem_cons_self
    simp only [isSpace, Bool.or_eq_true, decide_eq_true_iff] at hc
    refine endsNumeral_cons ?_ _
    rcases hc with ((rfl | rfl) | rfl) | rfl <;> decide

/-! ### What is read denotes -/

theorem exists_eq_append_skipSpace (cs : List Char) :
    ∃ pre, IsBlank pre ∧ cs = pre ++ skipSpace cs :=
  ⟨cs.takeWhile isSpace, fun _ hc ↦ List.mem_takeWhile_imp hc,
    List.takeWhile_append_dropWhile.symm⟩

/-- What is read with some steps denotes what it is read as. -/
structure ReadsSoundly (τ : Type) [DecidableEq τ] [Encoded τ] (steps : ℕ) : Prop where
  value : ∀ {cs rest} {v : Json τ}, value? steps cs = some (v, rest) →
    ∃ pre body, IsBlank pre ∧ cs = pre ++ (body ++ rest) ∧ Denotes body (.value v)
  elements : ∀ {cs rest} {vs : List (Json τ)}, items? steps cs = some (vs, rest) →
    ∃ body, cs = body ++ ']' :: rest ∧ Denotes body (.elements vs)
  members : ∀ {cs rest} {ms : List (τ × Json τ)}, members? steps cs = some (ms, rest) →
    ∃ body, cs = body ++ '\x7d' :: rest ∧ Denotes body (.members ms)

namespace ReadsSoundly

theorem value_succ (h : ReadsSoundly τ steps) (hread : value? (steps + 1) cs = some (v, rest)) :
    ∃ pre body, IsBlank pre ∧ cs = pre ++ (body ++ rest) ∧ Denotes body (.value v) := by
  obtain ⟨pre, hpre, hcs⟩ := exists_eq_append_skipSpace cs
  suffices hbody : ∃ body, skipSpace cs = body ++ rest ∧ Denotes body (.value v) by
    obtain ⟨body, heq, hbody⟩ := hbody
    exact ⟨pre, body, hpre, heq ▸ hcs, hbody⟩
  rw [value?] at hread
  split at hread
  · rename_i behind hfront
    obtain ⟨⟨s, tail⟩, hstring, hread⟩ := Option.map_eq_some_iff.1 hread
    obtain ⟨rfl, rfl⟩ := Prod.mk.inj hread
    obtain ⟨body, rfl, hbody⟩ := denotesString_of_quoted? hstring
    exact ⟨'"' :: (body ++ ['"']), by simp [hfront], .string hbody⟩
  · rename_i behind hfront
    split at hread
    · rename_i tail htail
      cases hread
      obtain ⟨gap, hgap, hbehind⟩ := exists_eq_append_skipSpace behind
      rw [htail] at hbehind
      exact ⟨'[' :: (gap ++ [']']), by simp [hfront, hbehind], .emptyArray hgap⟩
    · obtain ⟨⟨vs, tail⟩, hitems, hread⟩ := Option.map_eq_some_iff.1 hread
      obtain ⟨rfl, rfl⟩ := Prod.mk.inj hread
      obtain ⟨body, rfl, hbody⟩ := h.elements hitems
      exact ⟨'[' :: (body ++ [']']), by simp [hfront], .array hbody⟩
  · rename_i behind hfront
    split at hread
    · rename_i tail htail
      cases hread
      obtain ⟨gap, hgap, hbehind⟩ := exists_eq_append_skipSpace behind
      rw [htail] at hbehind
      exact ⟨'\x7b' :: (gap ++ ['\x7d']), by simp [hfront, hbehind], .object (.emptyBraces hgap)⟩
    · obtain ⟨⟨ms, tail⟩, hmembers, hread⟩ := Option.map_eq_some_iff.1 hread
      obtain ⟨rfl, rfl⟩ := Prod.mk.inj hread
      obtain ⟨body, rfl, hbody⟩ := h.members hmembers
      exact ⟨'\x7b' :: (body ++ ['\x7d']), by simp [hfront], .object (.braces hbody)⟩
  · split at hread
    · rename_i hnull
      cases hread
      exact ⟨_, Text.strip?_eq_some.1 hnull, .null⟩
    · split at hread
      · rename_i htrue
        cases hread
        exact ⟨_, Text.strip?_eq_some.1 htrue, .true⟩
      · split at hread
        · rename_i hfalse
          cases hread
          exact ⟨_, Text.strip?_eq_some.1 hfalse, .false⟩
        · obtain ⟨⟨x, tail⟩, hnumeral, hread⟩ := Option.map_eq_some_iff.1 hread
          obtain ⟨rfl, rfl⟩ := Prod.mk.inj hread
          obtain ⟨body, hfront, hbody⟩ := denotesNumber_of_numeral? hnumeral
          exact ⟨body, hfront, .number hbody⟩

theorem elements_succ (h : ReadsSoundly τ steps) (hread : items? (steps + 1) cs = some (vs, rest)) :
    ∃ body, cs = body ++ ']' :: rest ∧ Denotes body (.elements vs) := by
  rw [items?] at hread
  obtain ⟨⟨v, behind⟩, hvalue, hbehind⟩ := Option.bind_eq_some_iff.1 hread
  obtain ⟨pre, body, hpre, rfl, hbody⟩ := h.value hvalue
  obtain ⟨post, hpost, hsplit⟩ := exists_eq_append_skipSpace behind
  have helement := Denotes.element hpre hbody hpost
  dsimp only at hbehind
  split at hbehind
  · rename_i tail htail
    obtain ⟨⟨vs, last⟩, hitems, hlast⟩ := Option.bind_eq_some_iff.1 hbehind
    obtain ⟨rfl, rfl⟩ := Prod.mk.inj (Option.some.inj hlast)
    obtain ⟨others, rfl, hmore⟩ := h.elements hitems
    rw [htail] at hsplit
    exact ⟨(pre ++ (body ++ post)) ++ ',' :: others, by simp [hsplit],
      .moreElements helement hmore⟩
  · rename_i tail htail
    cases hbehind
    rw [htail] at hsplit
    exact ⟨pre ++ (body ++ post), by simp [hsplit], .lastElement helement⟩
  · cases hbehind

theorem members_succ (h : ReadsSoundly τ steps)
    (hread : members? (steps + 1) cs = some (ms, rest)) :
    ∃ body, cs = body ++ '\x7d' :: rest ∧ Denotes body (.members ms) := by
  obtain ⟨front, hfront, hcs⟩ := exists_eq_append_skipSpace cs
  rw [members?] at hread
  split at hread
  · rename_i quoted hquoted
    obtain ⟨⟨s, behind⟩, hstring, hbehind⟩ := Option.bind_eq_some_iff.1 hread
    obtain ⟨name, rfl, hname⟩ := denotesString_of_quoted? hstring
    obtain ⟨mid, hmid, hcolon⟩ := exists_eq_append_skipSpace behind
    dsimp only at hbehind
    split at hbehind
    · rename_i given hgiven
      obtain ⟨⟨v, after⟩, hvalue, hafter⟩ := Option.bind_eq_some_iff.1 hbehind
      obtain ⟨pre, body, hpre, rfl, hbody⟩ := h.value hvalue
      obtain ⟨post, hpost, hsplit⟩ := exists_eq_append_skipSpace after
      have hmember := Denotes.member hfront hname hmid (.element hpre hbody hpost)
      rw [hquoted, hcolon, hgiven] at hcs
      dsimp only at hafter
      split at hafter
      · rename_i tail htail
        obtain ⟨⟨others, last⟩, hmembers, hlast⟩ := Option.bind_eq_some_iff.1 hafter
        obtain ⟨rfl, rfl⟩ := Prod.mk.inj (Option.some.inj hlast)
        obtain ⟨rows, rfl, hmore⟩ := h.members hmembers
        rw [hsplit, htail] at hcs
        exact ⟨_, by rw [hcs]; simp, .moreMembers hmember hmore⟩
      · rename_i tail htail
        cases hafter
        rw [hsplit, htail] at hcs
        exact ⟨_, by rw [hcs]; simp, .lastMember hmember⟩
      · cases hafter
    · cases hbehind
  · cases hread

end ReadsSoundly

/-- **Nothing is read that the grammar does not have.** -/
theorem readsSoundly (steps : ℕ) : ReadsSoundly τ steps := by
  induction steps with
  | zero =>
    refine ⟨fun h ↦ ?_, fun h ↦ ?_, fun h ↦ ?_⟩ <;> cases h
  | succ steps ih => exact ⟨ih.value_succ, ih.elements_succ, ih.members_succ⟩

/-! ### Words and numbers -/

/-- A value that opens neither a string nor a list nor an object is a word or a numeral. -/
theorem value?_of_head {c : Char} (hspace : isSpace c = false) (hquote : c ≠ '"') (hlist : c ≠ '[')
    (hobject : c ≠ '\x7b') (steps : ℕ) (cs : List Char) : value? (τ := τ) (steps + 1) (c :: cs) =
      match Text.strip? "null".toList (c :: cs) with
      | some tail => some (null, tail)
      | none =>
        match Text.strip? "true".toList (c :: cs) with
        | some tail => some (bool true, tail)
        | none =>
          match Text.strip? "false".toList (c :: cs) with
          | some tail => some (bool false, tail)
          | none => (numeral? (c :: cs)).map fun (n, tail) ↦ (number n, tail) := by
  rw [value?, skipSpace_cons hspace]
  split
  · rename_i heq
    exact absurd (List.cons_eq_cons.1 heq).1 hquote
  · rename_i heq
    exact absurd (List.cons_eq_cons.1 heq).1 hlist
  · rename_i heq
    exact absurd (List.cons_eq_cons.1 heq).1 hobject
  · rfl

/-- Blanks before a value do not count. -/
theorem value?_append (hgap : IsBlank gap) (steps : ℕ) (cs : List Char) :
    value? (τ := τ) (steps + 1) (gap ++ cs) = value? (steps + 1) cs := by
  rw [value?, value?, skipSpace_append hgap]

theorem strip?_eq_none {w c : Char} (h : c ≠ w) (word cs : List Char) :
    Text.strip? (w :: word) (c :: cs) = none := by
  rw [Text.strip?, if_neg h]

theorem value?_null (steps : ℕ) (rest : List Char) :
    value? (τ := τ) (steps + 1) ('n' :: 'u' :: 'l' :: 'l' :: rest) = some (null, rest) := by
  have hnull : Text.strip? "null".toList ('n' :: 'u' :: 'l' :: 'l' :: rest) = some rest :=
    Text.strip?_eq_some.2 rfl
  rw [value?_of_head (by decide) (by decide) (by decide) (by decide), hnull]

theorem value?_true (steps : ℕ) (rest : List Char) :
    value? (τ := τ) (steps + 1) ('t' :: 'r' :: 'u' :: 'e' :: rest) = some (bool true, rest) := by
  have hnull : Text.strip? "null".toList ('t' :: 'r' :: 'u' :: 'e' :: rest) = none :=
    strip?_eq_none (by decide) _ _
  have htrue : Text.strip? "true".toList ('t' :: 'r' :: 'u' :: 'e' :: rest) = some rest :=
    Text.strip?_eq_some.2 rfl
  rw [value?_of_head (by decide) (by decide) (by decide) (by decide), hnull, htrue]

theorem value?_false (steps : ℕ) (rest : List Char) :
    value? (τ := τ) (steps + 1) ('f' :: 'a' :: 'l' :: 's' :: 'e' :: rest) =
      some (bool false, rest) := by
  have hnull : Text.strip? "null".toList ('f' :: 'a' :: 'l' :: 's' :: 'e' :: rest) = none :=
    strip?_eq_none (by decide) _ _
  have htrue : Text.strip? "true".toList ('f' :: 'a' :: 'l' :: 's' :: 'e' :: rest) = none :=
    strip?_eq_none (by decide) _ _
  have hfalse : Text.strip? "false".toList ('f' :: 'a' :: 'l' :: 's' :: 'e' :: rest) = some rest :=
    Text.strip?_eq_some.2 rfl
  rw [value?_of_head (by decide) (by decide) (by decide) (by decide), hnull, htrue, hfalse]

/-- What a numeral begins with opens no other value. -/
theorem value?_numeral (h : DenotesNumber cs x) (hrest : EndsNumeral rest) (steps : ℕ) :
    value? (τ := τ) (steps + 1) (cs ++ rest) = some (number x, rest) := by
  have hread := numeral?_of_denotesNumber h hrest
  obtain ⟨d, tail, rfl, hd⟩ := h.exists_cons
  have hopens : Opens d := hd.imp_right fun heq ↦ by simp [heq]
  have hne : ∀ e : Char, e.isDigit = false → e ≠ '-' → d ≠ e := by
    rintro e he hminus rfl
    rcases hd with hd | hd
    · exact Bool.false_ne_true (he.symm.trans hd)
    · exact hminus hd
  rw [List.cons_append] at hread ⊢
  rw [value?_of_head hopens.isSpace_eq_false (hne _ (by decide) (by decide))
      (hne _ (by decide) (by decide)) (hne _ (by decide) (by decide)),
    show Text.strip? "null".toList (d :: (tail ++ rest)) = none from
      strip?_eq_none (hne _ (by decide) (by decide)) _ _,
    show Text.strip? "true".toList (d :: (tail ++ rest)) = none from
      strip?_eq_none (hne _ (by decide) (by decide)) _ _,
    show Text.strip? "false".toList (d :: (tail ++ rest)) = none from
      strip?_eq_none (hne _ (by decide) (by decide)) _ _, hread]
  rfl

/-! ### What denotes is read -/

/-- A value stands at the front, blanks aside. -/
theorem Denotes.skipSpace_element (h : Denotes cs (.element v)) (rest : List Char) :
    ∃ d tail, skipSpace (cs ++ rest) = d :: tail ∧ Opens d := by
  cases h with
  | element hpre h _ =>
    obtain ⟨d, tail, rfl, hd⟩ := h.exists_cons
    rw [List.append_assoc, skipSpace_append hpre]
    exact ⟨d, _, skipSpace_cons hd.isSpace_eq_false _, hd⟩

theorem Denotes.skipSpace_elements (h : Denotes cs (.elements vs)) (rest : List Char) :
    ∃ d tail, skipSpace (cs ++ rest) = d :: tail ∧ Opens d := by
  cases h with
  | lastElement h => exact h.skipSpace_element rest
  | moreElements h _ =>
    rw [List.append_assoc]
    exact h.skipSpace_element _

/-- A name stands at the front, blanks aside. -/
theorem Denotes.skipSpace_member (h : Denotes cs (.member m)) (rest : List Char) :
    ∃ tail, skipSpace (cs ++ rest) = '"' :: tail := by
  cases h with
  | member hpre _ _ _ =>
    rw [List.append_assoc, skipSpace_append hpre]
    exact ⟨_, skipSpace_cons (by decide) _⟩

theorem Denotes.skipSpace_members (h : Denotes cs (.members ms)) (rest : List Char) :
    ∃ tail, skipSpace (cs ++ rest) = '"' :: tail := by
  cases h with
  | lastMember h => exact h.skipSpace_member rest
  | moreMembers h _ =>
    rw [List.append_assoc]
    exact h.skipSpace_member _

/-- The phrase is read from the front of every text that begins with the characters, if there are
two steps for each of them. -/
def IsRead (cs : List Char) : Phrase τ → Prop
  | .value v => ∀ rest steps, EndsNumeral rest → 2 * cs.length ≤ steps →
    value? steps (cs ++ rest) = some (v, rest)
  | .object pairs => ∀ rest steps, 2 * cs.length ≤ steps →
    value? steps (cs ++ rest) = some (ofPairs pairs, rest)
  | .element v => ∀ rest steps, EndsNumeral rest → 2 * cs.length ≤ steps →
    ∃ post, IsBlank post ∧ value? steps (cs ++ rest) = some (v, post ++ rest)
  | .elements vs => ∀ rest steps, 2 * cs.length < steps →
    items? steps (cs ++ ']' :: rest) = some (vs, rest)
  | .member m => ∀ rest steps, EndsNumeral rest → 2 * cs.length ≤ steps →
    members? (steps + 1) (cs ++ rest) =
      match skipSpace rest with
      | ',' :: tail => (members? steps tail).bind fun found ↦ some (m :: found.1, found.2)
      | '\x7d' :: tail => some ([m], tail)
      | _ => none
  | .members ms => ∀ rest steps, 2 * cs.length < steps →
    members? steps (cs ++ '\x7d' :: rest) = some (ms, rest)

theorem value?_array (h : Denotes cs (.elements vs)) (rest : List Char) (steps : ℕ) :
    value? (τ := τ) (steps + 1) ('[' :: (cs ++ ']' :: rest)) =
      (items? steps (cs ++ ']' :: rest)).map fun (vs, tail) ↦ (array vs, tail) := by
  obtain ⟨d, tail, hfront, hd⟩ := h.skipSpace_elements (']' :: rest)
  rw [value?, skipSpace_cons (by decide)]
  simp only [hfront]
  split
  · rename_i heq
    exact absurd (List.cons_eq_cons.1 heq).1 (hd.ne (by decide))
  · rfl

theorem value?_object (h : Denotes cs (.members ms)) (rest : List Char) (steps : ℕ) :
    value? (τ := τ) (steps + 1) ('\x7b' :: (cs ++ '\x7d' :: rest)) =
      (members? steps (cs ++ '\x7d' :: rest)).map fun (ms, tail) ↦ (ofPairs ms, tail) := by
  obtain ⟨tail, hfront⟩ := h.skipSpace_members ('\x7d' :: rest)
  rw [value?, skipSpace_cons (by decide)]
  simp only [hfront]
  rfl

/-- **All that the grammar has is read.** -/
theorem isRead_of_denotes (h : Denotes cs p) : IsRead cs p := by
  induction h with
  | null =>
    rintro rest (_ | steps) _ hsteps
    · cases hsteps
    · exact value?_null steps rest
  | true =>
    rintro rest (_ | steps) _ hsteps
    · cases hsteps
    · exact value?_true steps rest
  | false =>
    rintro rest (_ | steps) _ hsteps
    · cases hsteps
    · exact value?_false steps rest
  | number h =>
    rintro rest (_ | steps) hrest hsteps
    · obtain ⟨d, tail, rfl, -⟩ := h.exists_cons
      cases hsteps
    · exact value?_numeral h hrest steps
  | @string body s h =>
    rintro rest (_ | steps) _ hsteps
    · cases hsteps
    · rw [List.cons_append, List.append_assoc, List.singleton_append, value?,
        skipSpace_cons (by decide)]
      simp only [quoted?_of_denotesString h, Option.map_some]
  | @emptyArray gap hgap =>
    rintro rest (_ | steps) _ hsteps
    · cases hsteps
    · rw [List.cons_append, List.append_assoc, List.singleton_append, value?,
        skipSpace_cons (by decide)]
      simp only [skipSpace_append hgap, skipSpace_cons (show isSpace ']' = false by decide)]
  -- two brackets leave more steps than the list itself takes
  | @array cs vs h ih =>
    rintro rest (_ | steps) _ hsteps
    · cases hsteps
    · rw [List.cons_append, List.append_assoc, List.singleton_append, value?_array h,
        ih rest steps (by simp at hsteps; omega)]
      rfl
  | object h ih => exact fun rest steps _ hsteps ↦ ih rest steps hsteps
  | @emptyBraces gap hgap =>
    rintro rest (_ | steps) hsteps
    · cases hsteps
    · rw [List.cons_append, List.append_assoc, List.singleton_append, value?,
        skipSpace_cons (by decide)]
      simp only [skipSpace_append hgap, skipSpace_cons (show isSpace '\x7d' = false by decide)]
      rfl
  | @braces cs pairs h ih =>
    rintro rest (_ | steps) hsteps
    · cases hsteps
    · rw [List.cons_append, List.append_assoc, List.singleton_append, value?_object h,
        ih rest steps (by simp at hsteps; omega)]
      rfl
  | @element pre cs post v hpre h hpost ih =>
    rintro rest (_ | steps) hrest hsteps
    · obtain ⟨d, tail, rfl, -⟩ := h.exists_cons
      simp at hsteps
    · refine ⟨post, hpost, ?_⟩
      rw [List.append_assoc, List.append_assoc, value?_append hpre]
      exact ih _ _ (endsNumeral_append hpost hrest) (by simp at hsteps; omega)
  | @lastElement cs v h ih =>
    rintro rest (_ | steps) hsteps
    · cases hsteps
    · obtain ⟨post, hpost, hread⟩ := ih (']' :: rest) steps
        (endsNumeral_cons (by decide) rest) (by omega)
      rw [items?, hread]
      simp only [Option.bind_eq_bind, Option.bind_some, skipSpace_append hpost,
        skipSpace_cons (show isSpace ']' = false by decide)]
      rfl
  | @moreElements cs ds v vs h hmore ih ihmore =>
    rintro rest (_ | steps) hsteps
    · cases hsteps
    · rw [List.length_append, List.length_cons] at hsteps
      obtain ⟨post, hpost, hread⟩ := ih (',' :: (ds ++ ']' :: rest)) steps
        (endsNumeral_cons (by decide) _) (by omega)
      rw [List.append_assoc, List.cons_append, items?, hread]
      simp only [Option.bind_eq_bind, Option.bind_some, skipSpace_append hpost,
        skipSpace_cons (show isSpace ',' = false by decide), ihmore rest steps (by omega)]
      rfl
  | @member pre name s mid cs v hpre hname hmid h ih =>
    intro rest steps hrest hsteps
    obtain ⟨post, hpost, hread⟩ := ih rest steps hrest (by simp at hsteps; omega)
    simp only [List.append_assoc, List.cons_append]
    rw [members?, skipSpace_append hpre, skipSpace_cons (by decide)]
    simp only [quoted?_of_denotesString hname, Option.bind_eq_bind, Option.bind_some,
      skipSpace_append hmid, skipSpace_cons (show isSpace ':' = false by decide), hread,
      skipSpace_append hpost]
    rfl
  | @lastMember cs m h ih =>
    rintro rest (_ | steps) hsteps
    · cases hsteps
    · rw [ih ('\x7d' :: rest) steps (endsNumeral_cons (by decide) rest) (by omega),
        skipSpace_cons (by decide)]
      rfl
  | @moreMembers cs ds m ms h hmore ih ihmore =>
    rintro rest (_ | steps) hsteps
    · cases hsteps
    · rw [List.length_append, List.length_cons] at hsteps
      rw [List.append_assoc, List.cons_append, ih (',' :: (ds ++ '\x7d' :: rest)) steps
        (endsNumeral_cons (by decide) _) (by omega), skipSpace_cons (by decide)]
      simp only [ihmore rest steps (by omega)]
      rfl

/-! ### Whole texts -/

/-- **A text is read as a value exactly if it denotes the value**, with blanks around it. -/
theorem parse?_eq_some_iff : parse? text τ = some v ↔ Denotes text.toList (.element v) := by
  constructor
  · intro h
    rw [parse?] at h
    split at h
    · rename_i v rest hread
      split at h
      · rename_i hrest
        cases h
        obtain ⟨pre, body, hpre, heq, hbody⟩ := (readsSoundly _).value hread
        rw [heq]
        exact .element hpre hbody (List.all_eq_true.1 hrest)
      · cases h
    · cases h
  · intro h
    obtain ⟨post, hpost, hread⟩ := isRead_of_denotes h [] (2 * text.toList.length + 2)
      (fun _ hc ↦ by cases hc) (by omega)
    rw [List.append_nil, List.append_nil] at hread
    rw [parse?]
    simp only [hread]
    exact if_pos (List.all_eq_true.2 hpost)

end IndexSnapshot.Json
