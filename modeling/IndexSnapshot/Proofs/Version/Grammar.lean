import IndexSnapshot.Text.Blank
import IndexSnapshot.Text.Letters
import Mathlib.Computability.Language

/-!
# The language of version identifiers

The texts that are version identifiers, as a language over characters: a product of parts most of
which may be left out. `+` is the choice between two languages, `*` one text after another, `∗` any
number of texts one after another, and `1` holds the empty text alone.

The parts overlap. After a pre-release label a hyphen may separate the label from its number, or
begin a post-release, or stand there with nothing behind it, and which of these it is does not
follow from what stands before. So the language says which texts are identifiers, but not what they
mean.
-/

namespace IndexSnapshot.Version

open scoped Computability

/-! ### Pieces -/

namespace Grammar

/-- A text of the language, or none. -/
def optional (l : Language Char) : Language Char := 1 + l

/-- A single character. -/
def single (c : Char) : Language Char := {[c]}

/-- A run of characters of a class, at least one. -/
def run (p : Char → Bool) : Language Char := {cs | cs ≠ [] ∧ ∀ c ∈ cs, p c = true}

/-- Any number of blanks. -/
def blanks : Language Char := {cs | ∀ c ∈ cs, Text.isBlank c = true}

/-- A run of digits. -/
def digits : Language Char := run Char.isDigit

/-- A run of letters and digits. -/
def alphanums : Language Char := run Char.isAlphanum

/-- A mark between two pieces. -/
def separator : Language Char := single '-' + single '_' + single '.'

/-- One of some words, its letters in either case. -/
def anyWord (words : List String) : Language Char :=
  {cs | ∃ word ∈ words, Text.lower cs = word.toList}

/-- A label: one of some words, with a separator before it or none. -/
def label (words : List String) : Language Char := optional separator * anyWord words

/-- A label with its number, which may be left out, and a separator between them or none. -/
def numbered (words : List String) : Language Char :=
  label words * optional separator * optional digits

end Grammar

open Grammar

/-! ### The language -/

/-- The words for a pre-release. -/
def preLabels : List String := ["alpha", "a", "beta", "b", "preview", "pre", "c", "rc"]

/-- The words for a post-release. -/
def postLabels : List String := ["post", "rev", "r"]

/-- The word for a development release. -/
def devLabels : List String := ["dev"]

/-- The version identifiers. -/
def language : Language Char :=
  blanks * optional (anyWord ["v"]) *
    optional (digits * single '!') *
    (digits * (single '.' * digits)∗) *
    optional (numbered preLabels) *
    optional (single '-' * digits + numbered postLabels) *
    optional (numbered devLabels) *
    optional (single '+' * (alphanums * (separator * alphanums)∗)) *
    blanks

/-! ### Membership -/

namespace Grammar

variable {l T : Language Char} {cs : List Char}

theorem nil_mem_blanks : [] ∈ blanks := fun _ hc ↦ absurd hc List.not_mem_nil

theorem mem_optional_mul_iff : cs ∈ optional l * T ↔ cs ∈ T ∨ cs ∈ l * T := by
  rw [Grammar.optional, add_mul, one_mul]
  exact Iff.rfl

theorem mem_kstar_mul_iff : cs ∈ l∗ * T ↔ cs ∈ T ∨ cs ∈ l * (l∗ * T) := by
  rw [← mul_assoc, ← Language.one_add_self_mul_kstar_eq_kstar, add_mul, one_mul,
    Language.one_add_self_mul_kstar_eq_kstar]
  exact Iff.rfl

theorem cons_mem_single_mul {c : Char} (h : cs ∈ T) : c :: cs ∈ single c * T :=
  Set.mem_image2_of_mem (f := (· ++ ·)) (a := [c]) rfl h

/-- A run that is not empty, and what is left behind it. -/
theorem mem_run_mul_of_dropWhile {p : Char → Bool} (hne : cs.takeWhile p ≠ [])
    (h : cs.dropWhile p ∈ T) : cs ∈ run p * T := by
  rw [← List.takeWhile_append_dropWhile (p := p) (l := cs)]
  exact Language.append_mem_mul ⟨hne, fun c hc ↦ List.all_eq_true.1 List.all_takeWhile c hc⟩ h

end Grammar

end IndexSnapshot.Version
