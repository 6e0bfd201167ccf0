import IndexSnapshot.Text.Blank
import IndexSnapshot.Text.Letters
import IndexSnapshot.Version.Basic

/-!
# Reading a version

A version is read from left to right in one pass. Each part takes the longest text it can: no
part that comes later could use what an earlier one gives back, since only release segments and
the numbers after a label consist of digits, and every label begins with a letter.

Around the whole there may be blanks, and in front of it a `v`. Letters count in either case.
-/

namespace IndexSnapshot.Version

/-- The marks that may stand between the pieces of a version. -/
def isSeparator (c : Char) : Bool := c = '-' || c = '_' || c = '.'

/-- The text without the separator that it may begin with. -/
def skipSeparator : List Char → List Char
  | [] => []
  | c :: cs => if isSeparator c then cs else c :: cs

/-- The longest run of digits at the front, and the rest. -/
def spanDigits (cs : List Char) : List Char × List Char :=
  (cs.takeWhile Char.isDigit, cs.dropWhile Char.isDigit)

/-- The spellings of the pre-release phases, a longer one before any that begins it. -/
def phaseWords : List (String × Phase) :=
  [("alpha", .alpha), ("a", .alpha), ("beta", .beta), ("b", .beta), ("preview", .candidate),
    ("pre", .candidate), ("c", .candidate), ("rc", .candidate)]

/-- The spellings of a post-release label. -/
def postWords : List (String × Unit) := [("post", ()), ("rev", ()), ("r", ())]

/-- The spelling of a development label. -/
def devWords : List (String × Unit) := [("dev", ())]

/-- A label with its number: a separator or none, a word of the table, a separator or none, and
a run of digits that may be empty. -/
def labelled? {α : Type} (words : List (String × α)) (cs : List Char) :
    Option ((α × Magnitude) × List Char) :=
  (Text.firstWord? words (skipSeparator cs)).map fun (meaning, rest) ↦
    let (digits, rest) := spanDigits (skipSeparator rest)
    ((meaning, .ofDigits digits), rest)

/-- The text without the `v` that it may begin with. -/
def skipMark : List Char → List Char
  | c :: cs => if c.toLower = 'v' then cs else c :: cs
  | [] => []

/-- The epoch, digits before an exclamation mark; zero when it is left out. -/
def spanEpoch (cs : List Char) : Magnitude × List Char :=
  match spanDigits cs with
  | (d :: ds, '!' :: rest) => (.ofDigits (d :: ds), rest)
  | _ => (.ofNat 0, cs)

/-- A run of digits that is not empty. -/
def segment? (cs : List Char) : Option (Magnitude × List Char) :=
  match spanDigits cs with
  | ([], _) => none
  | (ds, rest) => some (.ofDigits ds, rest)

theorem length_dropWhile_le {α : Type} (p : α → Bool) (l : List α) :
    (l.dropWhile p).length ≤ l.length :=
  (List.dropWhile_sublist p).length_le

theorem length_lt_of_segment? {cs rest : List Char} {n : Magnitude}
    (h : segment? cs = some (n, rest)) : rest.length < cs.length := by
  unfold segment? at h
  split at h
  · cases h
  · rename_i ds r hne heq
    simp only [Option.some.injEq, Prod.mk.injEq] at h
    simp only [spanDigits, Prod.mk.injEq] at heq
    obtain ⟨h1, h2⟩ := heq
    have hlen :=
      congrArg List.length (List.takeWhile_append_dropWhile (p := Char.isDigit) (l := cs))
    rw [List.length_append, h1, h2, h.2] at hlen
    have : ds.length ≠ 0 := fun h0 ↦ hne (List.eq_nil_of_length_eq_zero h0)
    omega

/-- The further release segments, each after a point. -/
def moreSegments (cs : List Char) : List Magnitude × List Char :=
  match cs with
  | '.' :: tail =>
    match _h : segment? tail with
    | some (n, rest) =>
      let (ns, rest') := moreSegments rest
      (n :: ns, rest')
    | none => ([], '.' :: tail)
  | cs => ([], cs)
termination_by cs.length
decreasing_by
  have := length_lt_of_segment? _h
  simp only [List.length_cons]
  omega

/-- The release: one segment at least. -/
def release? (cs : List Char) : Option (List Magnitude × List Char) := do
  let (n, rest) ← segment? cs
  let (ns, rest) := moreSegments rest
  return (n :: ns, rest)

/-- The pre-release part, when there is one. -/
def spanPre (cs : List Char) : Option PreRelease × List Char :=
  match labelled? phaseWords cs with
  | some ((phase, number), rest) => (some ⟨phase, number⟩, rest)
  | none => (none, cs)

/-- The post-release part: a hyphen and digits, or a label. -/
def spanPost (cs : List Char) : Option Magnitude × List Char :=
  match cs with
  | '-' :: tail =>
    match segment? tail with
    | some (n, rest) => (some n, rest)
    | none => labelledPost cs
  | _ => labelledPost cs
where
  /-- A post-release written with a label. -/
  labelledPost (cs : List Char) : Option Magnitude × List Char :=
    match labelled? postWords cs with
    | some ((_, number), rest) => (some number, rest)
    | none => (none, cs)

/-- The development part, when there is one. -/
def spanDev (cs : List Char) : Option Magnitude × List Char :=
  match labelled? devWords cs with
  | some ((_, number), rest) => (some number, rest)
  | none => (none, cs)

/-- A segment of a local label: all digits make a number, anything else a text. -/
def localPart (run : List Char) : LocalPart :=
  if run.all Char.isDigit then .number (.ofDigits run)
  else .text (String.ofList (Text.lower run))

/-- The segment of a local label at the front: a run of letters and digits. -/
def localRun? (cs : List Char) : Option (LocalPart × List Char) :=
  match cs.takeWhile Char.isAlphanum with
  | [] => none
  | run => some (localPart run, cs.dropWhile Char.isAlphanum)

theorem length_le_of_localRun? {cs rest : List Char} {p : LocalPart}
    (h : localRun? cs = some (p, rest)) : rest.length ≤ cs.length := by
  unfold localRun? at h
  split at h
  · cases h
  · simp only [Option.some.injEq, Prod.mk.injEq] at h
    exact h.2 ▸ length_dropWhile_le _ _

/-- The further segments of a local label, each after one separator. -/
def moreLocal (cs : List Char) : List LocalPart × List Char :=
  match cs with
  | c :: tail =>
    if isSeparator c then
      match _h : localRun? tail with
      | some (p, rest) =>
        let (ps, rest') := moreLocal rest
        (p :: ps, rest')
      | none => ([], c :: tail)
    else ([], c :: tail)
  | [] => ([], [])
termination_by cs.length
decreasing_by
  have := length_le_of_localRun? _h
  simp only [List.length_cons]
  omega

/-- The local label, when there is one: a plus sign and segments. -/
def spanLocal (cs : List Char) : Option (List LocalPart) × List Char :=
  match cs with
  | '+' :: tail =>
    match localRun? tail with
    | some (p, rest) =>
      let (ps, rest) := moreLocal rest
      (some (p :: ps), rest)
    | none => (none, cs)
  | _ => (none, cs)

/-- The version that a text spells, or nothing when it spells none. -/
def parse? (text : String) : Option Version := do
  let cs := skipMark (Text.trimStart text.toList)
  let (epoch, cs) := spanEpoch cs
  let (release, cs) ← release? cs
  let (pre, cs) := spanPre cs
  let (post, cs) := spanPost cs
  let (dev, cs) := spanDev cs
  let (localParts, cs) := spanLocal cs
  if cs.all Text.isBlank then
    return { raw := text, epoch, release, pre, post, dev, localParts }
  else none

end IndexSnapshot.Version
