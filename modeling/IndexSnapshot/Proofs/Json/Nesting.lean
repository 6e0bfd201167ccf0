import IndexSnapshot.Proofs.Json.Grammar
import IndexSnapshot.Proofs.Number.Digits

/-!
# Quotes and brackets in JSON texts

A walk along a text keeps track of two things only: whether a place is within a string, and how
many brackets are open there. Every piece of a JSON text leads from outside of strings back to where
it began (`Denotes.walk_eq`).

For this reason no object text ends in another one that stands behind a blank
(`not_denotes_object_append`). At the blank at least one bracket of the first is open. If the blank
is outside of strings, the second object leaves this bracket open; if it is within a string, the
second object exchanges within and outside, and ends within one.
-/

namespace IndexSnapshot.Json

open Text (Encoded)

variable {c : Char} {cs ds : List Char} {depth : ℕ} {u : UInt16} {us : Utf16}

/-! ### Places in a text -/

/-- What a character is for the nesting of a text. -/
inductive Mark where
  | quote
  | solidus
  | opening
  | closing
  | other

def mark (c : Char) : Mark :=
  if c = '"' then .quote
  else if c = '\\' then .solidus
  else if c = '\x7b' ∨ c = '[' then .opening
  else if c = '\x7d' ∨ c = ']' then .closing
  else .other

/-- A place in a text, and the number of brackets that are open there. -/
inductive Place where
  | outside (depth : ℕ)
  | inside (depth : ℕ)
  /-- Within a string behind a reverse solidus. -/
  | escaped (depth : ℕ)

namespace Place

/-- The place behind a mark, unless no JSON text has the mark there. -/
def step : Place → Mark → Option Place
  | outside depth, .quote => some (inside depth)
  | outside _, .solidus => none
  | outside depth, .opening => some (outside (depth + 1))
  | outside 0, .closing => none
  | outside (depth + 1), .closing => some (outside depth)
  | outside depth, .other => some (outside depth)
  | inside depth, .quote => some (outside depth)
  | inside depth, .solidus => some (escaped depth)
  | inside depth, _ => some (inside depth)
  | escaped depth, _ => some (inside depth)

/-- The place behind a text. -/
def walk (p : Place) : List Char → Option Place
  | [] => some p
  | c :: cs => (p.step (mark c)).bind fun q ↦ q.walk cs

/-- The place with one more open bracket around it. -/
def raise : Place → Place
  | outside depth => outside (depth + 1)
  | inside depth => inside (depth + 1)
  | escaped depth => escaped (depth + 1)

/-- One place is outside of strings, and the other within one. -/
inductive Opposite : Place → Place → Prop
  | left (depth depth' : ℕ) : Opposite (outside depth) (inside depth')
  | right (depth depth' : ℕ) : Opposite (inside depth) (outside depth')

variable {p p' q q' : Place} {m : Mark}

theorem walk_append (p : Place) (cs ds : List Char) :
    p.walk (cs ++ ds) = (p.walk cs).bind fun q ↦ q.walk ds := by
  induction cs generalizing p with
  | nil => rfl
  | cons c cs ih =>
    rw [List.cons_append, walk, walk, Option.bind_assoc]
    exact Option.bind_congr fun q _ ↦ ih q

theorem walk_append_of_eq (h : p.walk cs = some q) (ds : List Char) :
    p.walk (cs ++ ds) = q.walk ds := by
  rw [walk_append, h, Option.bind_some]

theorem walk_cons_of_eq (h : p.step (mark c) = some q) (cs : List Char) :
    p.walk (c :: cs) = q.walk cs := by
  rw [walk, h, Option.bind_some]

theorem step_raise (h : p.step m = some q) : p.raise.step m = some q.raise := by
  cases p with
  | outside depth =>
    cases m with
    | closing =>
      cases depth <;> cases h
      rfl
    | quote | solidus | opening | other => cases h <;> rfl
  | inside depth => cases m <;> cases h <;> rfl
  | escaped depth =>
    cases h
    rfl

/-- A walk under one more bracket is the same walk. -/
theorem walk_raise (h : p.walk cs = some q) : p.raise.walk cs = some q.raise := by
  induction cs generalizing p with
  | nil =>
    cases h
    rfl
  | cons c cs ih =>
    obtain ⟨p', hstep, hwalk⟩ := Option.bind_eq_some_iff.1 h
    rw [walk_cons_of_eq (step_raise hstep)]
    exact ih hwalk

theorem Opposite.symm (h : Opposite p q) : Opposite q p := by
  cases h with
  | left depth depth' => exact .right depth' depth
  | right depth depth' => exact .left depth' depth

theorem opposite_of_step {depth depth' : ℕ} (hp : (outside depth).step m = some p')
    (hq : (inside depth').step m = some q') : Opposite p' q' := by
  cases m with
  | quote =>
    cases hp
    cases hq
    exact .right _ _
  | solidus => cases hp
  | closing =>
    cases depth <;> cases hp
    cases hq
    exact .left _ _
  | opening | other =>
    cases hp
    cases hq
    exact .left _ _

theorem Opposite.step (h : Opposite p q) (hp : p.step m = some p') (hq : q.step m = some q') :
    Opposite p' q' := by
  cases h with
  | left depth depth' => exact opposite_of_step hp hq
  | right depth depth' => exact (opposite_of_step hq hp).symm

/-- **Quotes exchange within and outside.** Walks from opposite places end in opposite places. -/
theorem Opposite.walk (h : Opposite p q) (hp : p.walk cs = some p') (hq : q.walk cs = some q') :
    Opposite p' q' := by
  induction cs generalizing p q with
  | nil =>
    cases hp
    cases hq
    exact h
  | cons c cs ih =>
    obtain ⟨p₁, hstep, hp⟩ := Option.bind_eq_some_iff.1 hp
    obtain ⟨q₁, hstep', hq⟩ := Option.bind_eq_some_iff.1 hq
    exact ih (h.step hstep hstep') hp hq

end Place

open Place

/-! ### Walks along phrases -/

theorem walk_outside (h : ∀ c ∈ cs, mark c = .other) (depth : ℕ) :
    (outside depth).walk cs = some (outside depth) := by
  induction cs with
  | nil => rfl
  | cons c cs ih =>
    obtain ⟨hc, hcs⟩ := List.forall_mem_cons.1 h
    have hstep : (outside depth).step (mark c) = some (outside depth) := by rw [hc]; rfl
    rw [walk_cons_of_eq hstep, ih hcs]

theorem IsBlank.walk_eq (h : IsBlank cs) (depth : ℕ) :
    (outside depth).walk cs = some (outside depth) := by
  refine walk_outside (fun c hc ↦ ?_) depth
  have hspace := h c hc
  simp only [isSpace, Bool.or_eq_true, decide_eq_true_iff] at hspace
  rcases hspace with ((rfl | rfl) | rfl) | rfl <;> rfl

theorem mark_of_isNumberChar (h : IsNumberChar c) : mark c = .other := by
  have hne : ∀ d, ¬ IsNumberChar d → c ≠ d := fun d hd heq ↦ hd (heq ▸ h)
  simp [mark, hne '"' (by decide), hne '\\' (by decide), hne '\x7b' (by decide),
    hne '[' (by decide), hne '\x7d' (by decide), hne ']' (by decide)]

theorem step_inside (hquote : c ≠ '"') (hslash : c ≠ '\\') (depth : ℕ) :
    (inside depth).step (mark c) = some (inside depth) := by
  unfold mark
  rw [if_neg hquote, if_neg hslash]
  split_ifs <;> rfl

theorem walk_inside (h : ∀ c ∈ cs, c ≠ '"' ∧ c ≠ '\\') (depth : ℕ) :
    (inside depth).walk cs = some (inside depth) := by
  induction cs with
  | nil => rfl
  | cons c cs ih =>
    obtain ⟨⟨hquote, hslash⟩, hcs⟩ := List.forall_mem_cons.1 h
    rw [walk_cons_of_eq (step_inside hquote hslash depth), ih hcs]

/-- An escape by number leads through a string. -/
theorem IsUnit.walk_append (h : IsUnit ds u) (cs : List Char) (depth : ℕ) :
    (inside depth).walk ('\\' :: 'u' :: (ds ++ cs)) = (inside depth).walk cs := by
  have hdigits : ∀ c ∈ ds, c ≠ '"' ∧ c ≠ '\\' := by
    intro c hc
    have hsome := Number.isSome_digitValue?_of_valueIn? h.value c hc
    constructor <;> rintro rfl <;> exact absurd hsome (by decide)
  exact walk_append_of_eq (walk_inside hdigits depth) cs

/-- A string stays within itself. -/
theorem DenotesString.walk_eq {body : List Char} (h : DenotesString body us) (depth : ℕ) :
    (inside depth).walk body = some (inside depth) := by
  induction h with
  | nil => rfl
  | plain hquote hslash _ _ ih => rw [walk_cons_of_eq (step_inside hquote hslash depth), ih]
  | short _ _ ih => exact ih
  | numbered hds _ ih => rw [hds.walk_append, ih]

/-- A string in quotes leads back to where it began. -/
theorem DenotesString.walk_quoted {body : List Char} (h : DenotesString body us)
    (rest : List Char) (depth : ℕ) :
    (outside depth).walk ('"' :: (body ++ '"' :: rest)) = (outside depth).walk rest :=
  walk_append_of_eq (h.walk_eq depth) ('"' :: rest)

theorem walk_bracketed {opening closing : Char} (hopening : opening = '\x7b' ∨ opening = '[')
    (hclosing : closing = '\x7d' ∨ closing = ']')
    (h : ∀ depth, (outside depth).walk cs = some (outside depth)) (depth : ℕ) :
    (outside depth).walk (opening :: (cs ++ [closing])) = some (outside depth) := by
  have hopen : (outside depth).step (mark opening) = some (outside (depth + 1)) := by
    rcases hopening with rfl | rfl <;> rfl
  have hclose : (outside (depth + 1)).step (mark closing) = some (outside depth) := by
    rcases hclosing with rfl | rfl <;> rfl
  rw [walk_cons_of_eq hopen, walk_append_of_eq (h (depth + 1)), walk_cons_of_eq hclose]
  rfl

theorem walk_comma (h : (outside depth).walk cs = some (outside depth))
    (h' : (outside depth).walk ds = some (outside depth)) :
    (outside depth).walk (cs ++ ',' :: ds) = some (outside depth) :=
  (walk_append_of_eq h (',' :: ds)).trans h'

variable {τ σ : Type} [DecidableEq τ] [Encoded τ] [DecidableEq σ] [Encoded σ]
  {pairs : List (τ × Json τ)} {pairs' : List (σ × Json σ)}

/-- **A piece of a JSON text leads back to where it began.** -/
theorem Denotes.walk_eq {phrase : Phrase τ} (h : Denotes cs phrase) (depth : ℕ) :
    (outside depth).walk cs = some (outside depth) := by
  induction h generalizing depth with
  | null | true | false => rfl
  | number h =>
    exact walk_outside (fun c hc ↦ mark_of_isNumberChar (h.isNumberChar_of_mem hc)) depth
  | string h => exact h.walk_quoted [] depth
  | emptyArray hgap => exact walk_bracketed (.inr rfl) (.inr rfl) hgap.walk_eq depth
  | array _ ih => exact walk_bracketed (.inr rfl) (.inr rfl) ih depth
  | object _ ih => exact ih depth
  | emptyBraces hgap => exact walk_bracketed (.inl rfl) (.inl rfl) hgap.walk_eq depth
  | braces _ ih => exact walk_bracketed (.inl rfl) (.inl rfl) ih depth
  | element hpre _ hpost ih =>
    rw [walk_append_of_eq (hpre.walk_eq depth), walk_append_of_eq (ih depth), hpost.walk_eq]
  | lastElement _ ih => exact ih depth
  | moreElements _ _ ih ih' => exact walk_comma (ih depth) (ih' depth)
  | member hpre hname hpost _ ih =>
    rw [walk_append_of_eq (hpre.walk_eq depth), hname.walk_quoted,
      walk_append_of_eq (hpost.walk_eq depth)]
    exact ih depth
  | lastMember _ ih => exact ih depth
  | moreMembers _ _ ih ih' => exact walk_comma (ih depth) (ih' depth)

/-! ### Objects behind blanks -/

theorem Denotes.exists_inner (h : Denotes cs (.object pairs)) : ∃ inner,
    cs = '\x7b' :: (inner ++ ['\x7d']) ∧ (outside 0).walk inner = some (outside 0) := by
  cases h with
  | emptyBraces hgap => exact ⟨_, rfl, hgap.walk_eq 0⟩
  | braces h => exact ⟨_, rfl, h.walk_eq 0⟩

theorem ne_escaped_of_walk {p q : Place} (h : p.walk (cs ++ [' ']) = some q) (depth : ℕ) :
    q ≠ escaped depth := by
  rw [walk_append] at h
  obtain ⟨r, -, h⟩ := Option.bind_eq_some_iff.1 h
  cases r <;> cases h <;> exact nofun

/-- **No object text ends in another one behind a blank.** -/
theorem not_denotes_object_append {front : List Char} (h : Denotes cs (.object pairs)) :
    ¬ Denotes (front ++ ' ' :: cs) (.object pairs') := by
  intro h'
  obtain ⟨inner, hinner, hwalk⟩ := h'.exists_inner
  obtain ⟨last, hlast, -⟩ := h.exists_inner
  cases front with
  | nil => exact absurd (List.cons_eq_cons.1 hinner).1 (by decide)
  | cons first front =>
    obtain rfl : first = '\x7b' := (List.cons_eq_cons.1 hinner).1
    have hrest : front ++ ' ' :: cs = inner ++ ['\x7d'] := (List.cons_eq_cons.1 hinner).2
    obtain rfl : front ++ [' '] ++ '\x7b' :: last = inner := by
      refine (List.append_left_inj ['\x7d']).1 ?_
      rw [← hrest, hlast]
      simp
    -- at the blank the bracket of the first object is open, and possibly more
    rw [walk_append] at hwalk
    obtain ⟨p, hblank, -⟩ := Option.bind_eq_some_iff.1 hwalk
    have hopen : (outside 0).step (mark '\x7b') = some (outside 0).raise := rfl
    have hcs : p.raise.walk cs = some (outside 0) := by
      rw [← walk_append_of_eq (walk_raise hblank), ← walk_cons_of_eq hopen, ← h'.walk_eq 0]
      simp
    cases p with
    | outside depth =>
      have hback := h.walk_eq (depth + 1)
      rw [show (outside depth).raise = outside (depth + 1) from rfl, hback] at hcs
      cases hcs
    | inside depth => cases (Opposite.right (depth + 1) 0).walk hcs (h.walk_eq 0)
    | escaped depth => exact ne_escaped_of_walk hblank depth rfl

/-- **Behind a blank there is one object text at most.** -/
theorem eq_of_append_blank {front back : List Char}
    (h : Denotes cs (.object pairs)) (h' : Denotes ds (.object pairs'))
    (heq : front ++ ' ' :: cs = back ++ ' ' :: ds) : front = back ∧ cs = ds := by
  rcases List.append_eq_append_iff.1 heq with ⟨mid, rfl, hmid⟩ | ⟨mid, rfl, hmid⟩
  · cases mid with
    | nil => exact ⟨(List.append_nil front).symm, (List.cons_eq_cons.1 hmid).2⟩
    | cons c mid =>
      rw [(List.cons_eq_cons.1 hmid).2] at h
      exact absurd h (not_denotes_object_append h')
  · cases mid with
    | nil => exact ⟨List.append_nil back, (List.cons_eq_cons.1 hmid).2.symm⟩
    | cons c mid =>
      rw [(List.cons_eq_cons.1 hmid).2] at h'
      exact absurd h' (not_denotes_object_append h)

end IndexSnapshot.Json
