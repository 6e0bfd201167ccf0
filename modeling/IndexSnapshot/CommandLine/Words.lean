import IndexSnapshot.CommandLine.Basic
import IndexSnapshot.Text.Split

/-!
# Sorting the words of a command

The words behind a command are its own options with their values, and words that are left for the
command or for one below it. From the first unknown option on all words are left over as they
stand, but that options of the command are picked out of them; they may belong to a member. Two
dashes end the options.
-/

namespace IndexSnapshot.CommandLine

/-- An option that is given, with its value if it has one. -/
abbrev Given := List (Flag × Option String)

/-- Words sorted for a command. -/
structure Sorted where
  /-- The plain words before any unknown option. -/
  plain : List String := []
  /-- The words from the first unknown option on. -/
  rest : List String := []
  /-- The options of the command. -/
  given : Given := []
  deriving DecidableEq, Repr

/-- Why the words of a command are not sorted to the end. -/
inductive Stop where
  /-- One of them asks for the version. -/
  | version
  /-- The value of an option is missing. -/
  | missingValue (flag : Flag)
  deriving DecidableEq, Repr

/-- A word looks like an option. A dash alone does not. -/
def looksLikeOption (word : String) : Bool :=
  match word.toList with
  | '-' :: _ :: _ => true
  | _ => false

namespace Entry

/-- The option of a name. -/
def flag? (e : Entry) (name : String) : Option Flag := e.flags.find? fun f ↦ f.name = name

/-- The option with a value that a word such as `--name=value` gives. -/
def assignment? (e : Entry) (word : String) : Option (Flag × String) :=
  match Text.cutAt (· = '=') word.toList with
  | (name, some value) =>
    ((e.flag? (String.ofList name)).filter fun f ↦ f.value.isSome).map fun f ↦
      (f, String.ofList value)
  | _ => none

end Entry

namespace Sorted

/-- One more option in front. -/
def give (f : Flag) (value : Option String) (s : Sorted) : Sorted :=
  { s with given := (f, value) :: s.given }

/-- One more word in front, which is plain or not. -/
def keep (isPlain : Bool) (word : String) (s : Sorted) : Sorted :=
  if isPlain then { s with plain := word :: s.plain } else { s with rest := word :: s.rest }

/-- The number of words that are left. -/
def size (s : Sorted) : Nat := s.plain.length + s.rest.length

end Sorted

/-- The words behind a command, sorted. The second argument tells that words are still plain,
since there has been no unknown option. -/
def sortWords (e : Entry) : Bool → List String → Except Stop Sorted
  | _, [] => .ok {}
  | isPlain, word :: ws =>
    if word = "--" then
      .ok (if isPlain then { plain := ws } else { rest := word :: ws })
    else
      match e.flag? word with
      | some f =>
        match f.value, ws with
        | none, ws => (sortWords e isPlain ws).map (Sorted.give f none)
        | some _, [] => .error (.missingValue f)
        | some _, value :: ws => (sortWords e isPlain ws).map (Sorted.give f (some value))
      | none =>
        if e.versionNote.isSome && asksVersion word then .error .version
        else
          match e.assignment? word with
          | some (f, value) => (sortWords e isPlain ws).map (Sorted.give f (some value))
          | none =>
            let isPlain := isPlain && !looksLikeOption word
            (sortWords e isPlain ws).map (Sorted.keep isPlain word)

theorem Sorted.size_give (f : Flag) (value : Option String) (s : Sorted) :
    (s.give f value).size = s.size := rfl

theorem Sorted.size_keep (isPlain : Bool) (word : String) (s : Sorted) :
    (s.keep isPlain word).size = s.size + 1 := by
  cases isPlain
  · rfl
  · exact Nat.succ_add s.plain.length s.rest.length

/-- What is mapped into a result was a result. -/
theorem exists_of_map_eq_ok {ε α β : Type} {f : α → β} {x : Except ε α} {b : β}
    (h : x.map f = .ok b) : ∃ a, x = .ok a ∧ f a = b := by
  cases x with
  | error e => cases h
  | ok a =>
    cases h
    exact ⟨a, rfl, rfl⟩

/-- No word is left that was not there. -/
theorem size_le_of_sortWords {e : Entry} {isPlain : Bool} {ws : List String} {s : Sorted}
    (h : sortWords e isPlain ws = .ok s) : s.size ≤ ws.length := by
  fun_induction sortWords e isPlain ws generalizing s with
  | case1 =>
    cases h
    exact Nat.le_refl 0
  | case2 isPlain ws =>
    cases h
    cases isPlain <;> simp [Sorted.size]
  | case3 isPlain word ws _ f _ _ ih =>
    obtain ⟨t, ht, rfl⟩ := exists_of_map_eq_ok h
    have := ih ht
    rw [Sorted.size_give, List.length_cons]
    omega
  | case4 => cases h
  | case5 isPlain word _ f _ value ws _ _ ih =>
    obtain ⟨t, ht, rfl⟩ := exists_of_map_eq_ok h
    have := ih ht
    rw [Sorted.size_give, List.length_cons, List.length_cons]
    omega
  | case6 => cases h
  | case7 isPlain word ws _ _ _ f value _ ih =>
    obtain ⟨t, ht, rfl⟩ := exists_of_map_eq_ok h
    have := ih ht
    rw [Sorted.size_give, List.length_cons]
    omega
  | case8 isPlain word ws =>
    rename_i ih
    obtain ⟨t, ht, rfl⟩ := exists_of_map_eq_ok h
    have := ih ht
    rw [Sorted.size_keep, List.length_cons]
    omega

end IndexSnapshot.CommandLine
