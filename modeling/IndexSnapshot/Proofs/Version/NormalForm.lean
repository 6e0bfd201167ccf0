import IndexSnapshot.Proofs.Version.Spelling

/-!
# Normal forms are read back

The normal form of an identifier is the spelling that the standard recommends: no blanks and no
mark, no epoch that is zero, no zeros in front of numbers, short labels in small letters, a point
before the labels `post` and `dev` and between the segments of a local label, and every number
written out.

Numbers below `2 ^ 53` are kept as they are. Where all numbers are, every spelling of an identifier
is read as the parts of the identifier, the normal form among them (`parse?_spellings`).
-/

namespace IndexSnapshot.Version

open Grammar Number

/-! ### Normal forms -/

/-- A number as it is written without zeros in front. -/
def digitsOf (n : ℕ) : List Char := Nat.toDigits 10 n

def Segment.normalForm : Segment → List Char
  | .number n => digitsOf n
  | .text t => t.chars

namespace Identifier

def epochForm (n : ℕ) : List Char := if n = 0 then [] else digitsOf n ++ ['!']

def releaseForm (n : ℕ) (ns : List ℕ) : List Char :=
  digitsOf n ++ (ns.map fun n ↦ '.' :: digitsOf n).flatten

def preForm (pre : Option (Phase × ℕ)) : List Char :=
  pre.elim [] fun p ↦ p.1.spelling.toList ++ digitsOf p.2

/-- A label behind a point, with its number. -/
def labelForm (word : String) (number : Option ℕ) : List Char :=
  number.elim [] fun n ↦ '.' :: (word.toList ++ digitsOf n)

def localForm : List Segment → List Char
  | [] => []
  | p :: ps => '+' :: (p.normalForm ++ (ps.map fun p ↦ '.' :: p.normalForm).flatten)

/-- The normal form of the identifier. -/
def normalForm (x : Identifier) : List Char :=
  epochForm x.epoch ++ releaseForm x.major x.minors ++ (preForm x.pre ++ labelForm "post" x.post) ++
    labelForm "dev" x.dev ++ localForm x.locals

end Identifier

/-! ### Normal forms are spellings -/

variable {n : ℕ}

theorem digitsOf_mem_marked (n : ℕ) : digitsOf n ∈ marked n :=
  .inl (Language.append_mem_mul (a := []) (l := optional separator) (.inl rfl)
    (toDigits_mem_numeral n))

theorem epochForm_mem (n : ℕ) : Identifier.epochForm n ∈ epochSpellings n := by
  unfold Identifier.epochForm
  split_ifs with h
  · exact .inr ⟨rfl, h⟩
  · exact .inl (Language.append_mem_mul (toDigits_mem_numeral n) rfl)

/-- Pieces in normal form one after another. -/
theorem flatten_map_mem_prod {ι : Type} {form : ι → List Char} {f : ι → Language Char}
    (h : ∀ i, form i ∈ f i) (is : List ι) : (is.map form).flatten ∈ (is.map f).prod := by
  induction is with
  | nil => rfl
  | cons i is ih =>
    rw [List.map_cons, List.map_cons, List.prod_cons, List.flatten_cons]
    exact Language.append_mem_mul (h i) ih

theorem releaseForm_mem (n : ℕ) (ns : List ℕ) :
    Identifier.releaseForm n ns ∈ releaseSpellings n ns := by
  refine Language.append_mem_mul (toDigits_mem_numeral n) (flatten_map_mem_prod (fun n ↦ ?_) ns)
  exact Language.append_mem_mul (a := ['.']) rfl (toDigits_mem_numeral n)

/-- A word of a label in small letters, with a point before it. -/
theorem point_cons_mem_label {words : List String} {word : String} (hword : word ∈ words)
    (hlower : Text.lower word.toList = word.toList) : '.' :: word.toList ∈ label words :=
  Language.append_mem_mul (a := ['.']) (.inr (.inr rfl)) ⟨word, hword, hlower⟩

theorem labelForm_mem {words : List String} {word : String} (hword : word ∈ words)
    (hlower : Text.lower word.toList = word.toList) (number : Option ℕ) :
    Identifier.labelForm word number ∈ labelledSpellings words number := by
  cases number with
  | none => rfl
  | some n =>
    exact Language.append_mem_mul (point_cons_mem_label hword hlower)
      (.inl (digitsOf_mem_marked n))

theorem spelling_mem_label (phase : Phase) : phase.spelling.toList ∈ label phase.words := by
  have hword : phase.spelling ∈ phase.words ∧
      Text.lower phase.spelling.toList = phase.spelling.toList := by
    cases phase <;> decide
  exact Language.append_mem_mul (a := []) (.inl rfl) ⟨_, hword⟩

theorem preAndPostForm_mem (pre : Option (Phase × ℕ)) (post : Option ℕ) :
    Identifier.preForm pre ++ Identifier.labelForm "post" post ∈ preAndPostSpellings pre post := by
  have hpost : Identifier.labelForm "post" post ∈ postSpellings post :=
    mem_postSpellings_of_labelled (labelForm_mem (by decide) (by decide) post)
  cases pre with
  | none => exact hpost
  | some p =>
    obtain ⟨phase, n⟩ := p
    show phase.spelling.toList ++ digitsOf n ++ Identifier.labelForm "post" post ∈ _
    rw [List.append_assoc]
    exact Language.append_mem_mul (spelling_mem_label phase)
      (.inl (Language.append_mem_mul (digitsOf_mem_marked n) hpost))

theorem segmentForm_mem (p : Segment) : p.normalForm ∈ segmentSpellings p := by
  cases p with
  | number n => exact toDigits_mem_numeral n
  | text t =>
    refine ⟨_, List.mem_singleton_self _, ?_⟩
    rw [String.toList_ofList]
    exact t.lower_eq

theorem localForm_mem (ps : List Segment) : Identifier.localForm ps ∈ localSpellings ps := by
  cases ps with
  | nil => rfl
  | cons p ps =>
    refine Language.append_mem_mul (a := ['+']) rfl
      (Language.append_mem_mul (segmentForm_mem p) (flatten_map_mem_prod (fun p ↦ ?_) ps))
    exact Language.append_mem_mul (a := ['.']) (.inr rfl) (segmentForm_mem p)

/-- **The normal form is a spelling.** -/
theorem normalForm_mem_spellings (x : Identifier) : x.normalForm ∈ x.spellings := by
  have hfront : ([] : List Char) ∈ blanks * optional (anyWord ["v"]) :=
    Language.append_mem_mul nil_mem_blanks (.inl rfl)
  rw [← List.append_nil x.normalForm]
  refine Language.append_mem_mul ?_ nil_mem_blanks
  refine Language.append_mem_mul ?_ (localForm_mem x.locals)
  refine Language.append_mem_mul ?_ (labelForm_mem (by decide) (by decide) x.dev)
  refine Language.append_mem_mul ?_ (preAndPostForm_mem x.pre x.post)
  refine Language.append_mem_mul ?_ (releaseForm_mem x.major x.minors)
  exact Language.append_mem_mul hfront (epochForm_mem x.epoch)

/-! ### Exact numbers -/

namespace Identifier

variable {x : Identifier}

theorem isExact_of_lt (h : ∀ n ∈ x.numbers, n < 2 ^ 53) : x.IsExact :=
  fun n hn ↦ Magnitude.ofNat_of_lt (h n hn)

/-- Versions under two roundings are the same when the roundings agree on all numbers. -/
theorem versionBy_congr {round round' : ℕ → Magnitude} (h : ∀ n ∈ x.numbers, round n = round' n)
    (raw : String) : x.versionBy round raw = x.versionBy round' raw := by
  have hepoch : round x.epoch = round' x.epoch := h _ (by simp [numbers])
  have hrelease : x.release.map round = x.release.map round' :=
    List.map_congr_left fun n hn ↦ h n (by simp [numbers, hn])
  have hpre : (x.pre.map fun p ↦ (⟨p.1, round p.2⟩ : PreRelease)) =
      x.pre.map fun p ↦ ⟨p.1, round' p.2⟩ :=
    Option.map_congr fun p hp ↦ by rw [h p.2 (by simp [numbers, hp])]
  have hpost : x.post.map round = x.post.map round' :=
    Option.map_congr fun n hn ↦ h n (by simp [numbers, hn])
  have hdev : x.dev.map round = x.dev.map round' :=
    Option.map_congr fun n hn ↦ h n (by simp [numbers, hn])
  have hlocals : x.locals.map (Segment.part round) = x.locals.map (Segment.part round') := by
    refine List.map_congr_left fun p hp ↦ ?_
    cases p with
    | number n =>
      have hn : n ∈ x.locals.filterMap Segment.number? := List.mem_filterMap.2 ⟨_, hp, rfl⟩
      rw [Segment.part, Segment.part, h n (by simp [numbers, hn])]
    | text t => rfl
  rw [versionBy, versionBy, hepoch, hrelease, hpre, hpost, hdev, hlocals]

theorem IsExact.rounded_eq (h : x.IsExact) (raw : String) : x.rounded raw = x.version raw :=
  versionBy_congr h raw

end Identifier

/-- **Every spelling is read as the parts of the identifier**, as long as its numbers are below
`2 ^ 53`, and so is its normal form. -/
theorem parse?_spellings (x : Identifier) (hsafe : ∀ n ∈ x.numbers, n < 2 ^ 53) :
    (∀ text : String, text.toList ∈ x.spellings → parse? text = some (x.version text)) ∧
      parse? (String.ofList x.normalForm) = some (x.version (String.ofList x.normalForm)) := by
  have hread : ∀ text : String, text.toList ∈ x.spellings →
      parse? text = some (x.version text) := by
    intro text h
    rw [parse?_of_mem_spellings h, (Identifier.isExact_of_lt hsafe).rounded_eq]
  refine ⟨hread, hread _ ?_⟩
  rw [String.toList_ofList]
  exact normalForm_mem_spellings x

/-- A post-release of a pre-release with every part, in its normal form and in a spelling that has a
hyphen in both places where it could be taken for something else. -/
theorem parse?_spellings_local : ∃ x : Identifier, (∀ n ∈ x.numbers, n < 2 ^ 53) ∧
    "v1!2.00-ALPHA-3-4.Dev5+Ubuntu-6".toList ∈ x.spellings ∧
    x.normalForm = "1!2.0a3.post4.dev5+ubuntu.6".toList ∧
    parse? "v1!2.00-ALPHA-3-4.Dev5+Ubuntu-6" =
      some (x.version "v1!2.00-ALPHA-3-4.Dev5+Ubuntu-6") ∧
    parse? "1!2.0a3.post4.dev5+ubuntu.6" = some (x.version "1!2.0a3.post4.dev5+ubuntu.6") := by
  let ubuntu : LocalText := ⟨"ubuntu".toList, by decide, by decide, by decide⟩
  let x : Identifier := ⟨1, 2, [0], some (.alpha, 3), some 4, some 5, [.text ubuntu, .number 6]⟩
  have hsafe : ∀ n ∈ x.numbers, n < 2 ^ 53 := by decide
  have hform : x.normalForm = "1!2.0a3.post4.dev5+ubuntu.6".toList := by decide
  have hfront : ['v'] ∈ blanks * optional (anyWord ["v"]) :=
    Language.append_mem_mul nil_mem_blanks (.inr ⟨"v", by decide, by decide⟩)
  have hepoch : ['1', '!'] ∈ epochSpellings 1 :=
    .inl (Language.append_mem_mul (a := ['1']) ⟨0, by decide⟩ rfl)
  have hrelease : ['2', '.', '0', '0'] ∈ releaseSpellings 2 [0] :=
    Language.append_mem_mul (a := ['2']) ⟨0, by decide⟩
      (Language.append_mem_mul (a := ['.', '0', '0']) (b := [])
        (Language.append_mem_mul (a := ['.']) (m := numeral 0) rfl ⟨1, by decide⟩) rfl)
  have hpre : ['-', 'A', 'L', 'P', 'H', 'A'] ∈ label Phase.alpha.words :=
    Language.append_mem_mul (a := ['-']) (.inr (.inl (.inl rfl))) ⟨"alpha", by decide, by decide⟩
  have hnumber : ['-', '3'] ∈ marked 3 :=
    .inl (Language.append_mem_mul (a := ['-']) (.inr (.inl (.inl rfl))) ⟨0, by decide⟩)
  have hpost : ['-', '4'] ∈ postSpellings (some 4) :=
    .inl (Language.append_mem_mul (a := ['-']) rfl ⟨0, by decide⟩)
  have hpreAndPost : ['-', 'A', 'L', 'P', 'H', 'A', '-', '3', '-', '4'] ∈
      preAndPostSpellings (some (.alpha, 3)) (some 4) :=
    Language.append_mem_mul hpre (.inl (Language.append_mem_mul hnumber hpost))
  have hdevLabel : ['.', 'D', 'e', 'v'] ∈ label devLabels :=
    Language.append_mem_mul (a := ['.']) (.inr (.inr rfl)) ⟨"dev", by decide, by decide⟩
  have hdevNumber : ['5'] ∈ marked 5 :=
    .inl (Language.append_mem_mul (a := []) (l := optional separator) (.inl rfl) ⟨0, by decide⟩)
  have hdev : ['.', 'D', 'e', 'v', '5'] ∈ labelledSpellings devLabels (some 5) :=
    Language.append_mem_mul hdevLabel (.inl hdevNumber)
  have hubuntu : ['U', 'b', 'u', 'n', 't', 'u'] ∈ segmentSpellings (.text ubuntu) :=
    ⟨"ubuntu", by decide, by decide⟩
  have hsix : ['-', '6'] ∈ separator * segmentSpellings (.number 6) :=
    Language.append_mem_mul (a := ['-']) (.inl (.inl rfl)) ⟨0, by decide⟩
  have hlocal : ['+', 'U', 'b', 'u', 'n', 't', 'u', '-', '6'] ∈ localSpellings x.locals :=
    Language.append_mem_mul (a := ['+']) rfl
      (Language.append_mem_mul hubuntu (Language.append_mem_mul hsix (b := []) rfl))
  have hspelling : "v1!2.00-ALPHA-3-4.Dev5+Ubuntu-6".toList ∈ x.spellings :=
    Language.append_mem_mul (b := []) (Language.append_mem_mul (Language.append_mem_mul
      (Language.append_mem_mul (Language.append_mem_mul (Language.append_mem_mul hfront hepoch)
        hrelease) hpreAndPost) hdev) hlocal) nil_mem_blanks
  obtain ⟨hread, hnormal⟩ := parse?_spellings x hsafe
  rw [hform, String.ofList_toList] at hnormal
  exact ⟨x, hsafe, hspelling, hform, hread _ hspelling, hnormal⟩

end IndexSnapshot.Version
