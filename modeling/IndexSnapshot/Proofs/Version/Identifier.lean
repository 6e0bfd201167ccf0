import IndexSnapshot.Proofs.Number.Decimal
import IndexSnapshot.Proofs.Version.Grammar
import IndexSnapshot.Version.Parser

/-!
# Version identifiers and their spellings

An `Identifier` is what a version identifier says: its parts, with whole numbers of any size. It can
be spelled in many ways. Zeros may stand in front of numbers, letters count in either case, labels
have several words with separators around them or none, blanks may stand around the whole.
`spellings` is the language of all these texts.

A number that is zero may be left out behind a label, and one case of that is no spelling: when a
pre-release label ends in its last letter and a post-release is written as a hyphen and a number,
the number belongs to the label, as `1a-1` is `1a1`. Apart from this case every combination of
spellings of the parts is one.

A `Version` holds rounded numbers. `Identifier.versionBy` is the version of an identifier under a
rounding of numbers.
-/

namespace IndexSnapshot

open Number (numeral)

/-- The words for a phase. -/
def Phase.words : Phase → List String
  | .alpha => ["alpha", "a"]
  | .beta => ["beta", "b"]
  | .candidate => ["preview", "pre", "c", "rc"]

namespace Version

open Grammar

/-! ### Identifiers -/

/-- A textual segment of a local label: small letters and digits, not digits alone. -/
structure LocalText where
  chars : List Char
  isAlphanum : chars.all Char.isAlphanum = true
  lower_eq : Text.lower chars = chars
  not_digits : chars.all Char.isDigit = false
  deriving DecidableEq

/-- A segment of a local label. -/
inductive Segment where
  | number (n : ℕ)
  | text (t : LocalText)
  deriving DecidableEq

/-- What a version identifier says. -/
structure Identifier where
  epoch : ℕ
  /-- The first segment of the release. -/
  major : ℕ
  /-- The further segments of the release. -/
  minors : List ℕ
  pre : Option (Phase × ℕ)
  post : Option ℕ
  dev : Option ℕ
  /-- The segments of the local label; there is none without a segment. -/
  locals : List Segment
  deriving DecidableEq

namespace Segment

/-- The number that a segment is, when it is one. -/
def number? : Segment → Option ℕ
  | .number n => some n
  | .text _ => none

/-- The segment of a version, under a rounding of numbers. -/
def part (round : ℕ → Magnitude) : Segment → LocalPart
  | .number n => .number (round n)
  | .text t => .text (String.ofList t.chars)

end Segment

/-! ### Spellings of the parts -/

/-- A number that is zero, left out. -/
def omitted (n : ℕ) : Language Char := {cs | cs = [] ∧ n = 0}

/-- A number behind a label, with a separator before it or none. A number that is zero may be left
out behind the separator. -/
def marked (n : ℕ) : Language Char :=
  optional separator * numeral n + separator * omitted n

def epochSpellings (n : ℕ) : Language Char := numeral n * single '!' + omitted n

/-- Release segments that follow another one. -/
def minorSpellings (ns : List ℕ) : Language Char := (ns.map fun n ↦ single '.' * numeral n).prod

def releaseSpellings (n : ℕ) (ns : List ℕ) : Language Char := numeral n * minorSpellings ns

/-- A label with its number, or nothing where there is no number. -/
def labelledSpellings (words : List String) : Option ℕ → Language Char
  | none => 1
  | some n => label words * (marked n + omitted n)

/-- A post-release written with a label or as a number behind a hyphen. -/
def postSpellings : Option ℕ → Language Char
  | none => 1
  | some n => single '-' * numeral n + labelledSpellings postLabels (some n)

/-- A pre-release and a post-release: a label that ends in a letter is not followed by a number
behind a hyphen. -/
def preAndPostSpellings : Option (Phase × ℕ) → Option ℕ → Language Char
  | none, post => postSpellings post
  | some (phase, n), post =>
    label phase.words *
      (marked n * postSpellings post + omitted n * labelledSpellings postLabels post)

def segmentSpellings : Segment → Language Char
  | .number n => numeral n
  | .text t => anyWord [String.ofList t.chars]

/-- Segments of a local label that follow another one. -/
def furtherSpellings (ps : List Segment) : Language Char :=
  (ps.map fun p ↦ separator * segmentSpellings p).prod

def localSpellings : List Segment → Language Char
  | [] => 1
  | p :: ps => single '+' * (segmentSpellings p * furtherSpellings ps)

namespace Identifier

variable (x : Identifier)

/-- The texts that spell the identifier. -/
def spellings : Language Char :=
  blanks * optional (anyWord ["v"]) * epochSpellings x.epoch * releaseSpellings x.major x.minors *
    preAndPostSpellings x.pre x.post * labelledSpellings devLabels x.dev *
    localSpellings x.locals * blanks

/-! ### Versions of an identifier -/

/-- The segments of the release. -/
def release : List ℕ := x.major :: x.minors

/-- All numbers of the identifier. -/
def numbers : List ℕ :=
  x.epoch :: x.release ++ (x.pre.map Prod.snd).toList ++ x.post.toList ++ x.dev.toList ++
    x.locals.filterMap Segment.number?

/-- The version that a text says, under a rounding of numbers. -/
def versionBy (round : ℕ → Magnitude) (raw : String) : Version where
  raw := raw
  epoch := round x.epoch
  release := x.release.map round
  pre := x.pre.map fun p ↦ ⟨p.1, round p.2⟩
  post := x.post.map round
  dev := x.dev.map round
  localParts := if x.locals = [] then none else some (x.locals.map (Segment.part round))

/-- The version of a text, each number as the nearest one of the range. -/
def rounded (raw : String) : Version := x.versionBy .ofNat raw

/-- The version of a text, each number as it is. -/
def version (raw : String) : Version := x.versionBy .finite raw

/-- All numbers of the identifier are kept when they are rounded. -/
def IsExact : Prop := ∀ n ∈ x.numbers, Magnitude.ofNat n = .finite n

end Identifier

end Version

end IndexSnapshot
