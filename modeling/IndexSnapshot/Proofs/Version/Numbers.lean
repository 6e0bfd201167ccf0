import IndexSnapshot.Proofs.Version.Preorder
import IndexSnapshot.Version.Parser
import Mathlib.Data.List.Infix
import Mathlib.Data.List.TakeWhile
import Mathlib.Tactic.NormNum

/-!
# The numbers of a version

Every number of a version that was read from a text is denoted by a run of digits of that text.
A run of at most 308 digits is in the range of 64-bit numbers, so a text without longer runs gives
a version with finite numbers only (`Version.isFinite_of_parse?`).

An infinite development number has the same place in the order as none, so sameness of versions
tells nothing about stability in general; among versions whose numbers are finite it does
(`Version.isStable_eq_of_isSame`).

The readers are followed one by one. `Reads cs ns rest` says of each of them that it leaves an end
of the text and that its numbers are denoted by digits of the text, and such readings compose.
-/

namespace IndexSnapshot

/-! ### Digit runs in the range -/

namespace Magnitude

theorem foldl_digits_lt (ds : List Char) (h : ∀ d ∈ ds, d.isDigit = true) (acc : ℕ) :
    ds.foldl (fun n d ↦ 10 * n + (d.toNat - '0'.toNat)) acc < (acc + 1) * 10 ^ ds.length := by
  induction ds generalizing acc with
  | nil => simp
  | cons d ds ih =>
    have hd : d.toNat ≤ '9'.toNat := by
      have hdigit := h d List.mem_cons_self
      simp only [Char.isDigit, Bool.and_eq_true, decide_eq_true_eq] at hdigit
      exact hdigit.2
    have hvalue : 10 * acc + (d.toNat - '0'.toNat) + 1 ≤ (acc + 1) * 10 := by
      simp only [Char.reduceToNat] at hd ⊢
      omega
    rw [List.foldl_cons, List.length_cons, pow_succ']
    calc ds.foldl (fun n d ↦ 10 * n + (d.toNat - '0'.toNat)) (10 * acc + (d.toNat - '0'.toNat))
        < (10 * acc + (d.toNat - '0'.toNat) + 1) * 10 ^ ds.length :=
          ih (fun e he ↦ h e (List.mem_cons_of_mem d he)) _
      _ ≤ (acc + 1) * 10 * 10 ^ ds.length := Nat.mul_le_mul_right _ hvalue
      _ = (acc + 1) * (10 * 10 ^ ds.length) := Nat.mul_assoc _ _ _

/-- The value of a run of at most `k` digits is below the `k`-th power of ten. -/
theorem digitsValue_lt {ds : List Char} {k : ℕ} (h : ∀ d ∈ ds, d.isDigit = true)
    (hlen : ds.length ≤ k) : digitsValue ds < 10 ^ k := by
  have hlt := foldl_digits_lt ds h 0
  rw [Nat.zero_add, Nat.one_mul] at hlt
  exact hlt.trans_le (Nat.pow_le_pow_right (Nat.succ_pos 9) hlen)

/-- Rounding a number of at most `k` binary digits adds at most one unit of the last place that
is kept. -/
theorem roundSignificant_one_le {n k : ℕ} (h : n < Nat.pow 2 k) :
    Number.roundSignificant n 1 ≤ n + 2 ^ (k - 53) := by
  have hunit : 2 ^ (Number.bitLength n - 53) ≤ 2 ^ (k - 53) :=
    Nat.pow_le_pow_right Nat.two_pos (Nat.sub_le_sub_right (Number.bitLength_le_of_lt h) 53)
  have hdiv : ∀ den, Number.divRound n den ≤ n / den + 1 := by
    intro den
    unfold Number.divRound
    dsimp only
    split_ifs <;> omega
  simp only [Number.roundSignificant, Nat.div_one, Nat.one_mul, Nat.pow_eq]
  calc Number.divRound n (2 ^ (Number.bitLength n - 53)) * 2 ^ (Number.bitLength n - 53)
      ≤ (n / 2 ^ (Number.bitLength n - 53) + 1) * 2 ^ (Number.bitLength n - 53) :=
        Nat.mul_le_mul_right _ (hdiv _)
    _ = n / 2 ^ (Number.bitLength n - 53) * 2 ^ (Number.bitLength n - 53) +
        2 ^ (Number.bitLength n - 53) := by rw [Nat.add_mul, Nat.one_mul]
    _ ≤ n + 2 ^ (k - 53) := Nat.add_le_add (Nat.div_mul_le_self _ _) hunit

/-- **A run of at most 308 digits reads as a finite number.** -/
theorem ofDigits_ne_infinite {ds : List Char} (h : ∀ d ∈ ds, d.isDigit = true)
    (hlen : ds.length ≤ 308) : ofDigits ds ≠ .infinite := by
  have hvalue : digitsValue ds < 10 ^ 308 := digitsValue_lt h hlen
  -- the range has room for one more unit of its last place
  have hround : Number.roundSignificant (digitsValue ds) 1 < Nat.pow 2 rangeBits := by
    calc Number.roundSignificant (digitsValue ds) 1
        ≤ digitsValue ds + 2 ^ (rangeBits - 53) :=
          roundSignificant_one_le (hvalue.trans (by decide +kernel))
      _ < 10 ^ 308 + 2 ^ (rangeBits - 53) := Nat.add_lt_add_right hvalue _
      _ ≤ Nat.pow 2 rangeBits := by decide +kernel
  simp only [ofDigits, ofNat, if_pos hround, ne_eq, reduceCtorEq, not_false_eq_true]

end Magnitude

/-! ### The numbers of a version -/

/-- The number that a segment of a local label is, when it is one. -/
def LocalPart.number? : LocalPart → Option Magnitude
  | .number n => some n
  | .text _ => none

namespace Version

/-- All numbers of a version. -/
def numbers (v : Version) : List Magnitude :=
  [v.epoch] ++ v.release ++ (v.pre.map PreRelease.number).toList ++ v.post.toList ++
    v.dev.toList ++ v.localParts.elim [] (·.filterMap LocalPart.number?)

/-- No number of the version is past the range. -/
def IsFinite (v : Version) : Prop := ∀ n ∈ v.numbers, n ≠ .infinite

instance (v : Version) : Decidable v.IsFinite :=
  inferInstanceAs (Decidable (∀ n ∈ v.numbers, n ≠ .infinite))

theorem IsFinite.dev_ne_infinite {v : Version} (h : v.IsFinite) {n : Magnitude}
    (hn : v.dev = some n) : n ≠ .infinite :=
  h n (by simp [numbers, hn])

/-- The development part is told by its place in the order, unless its number is infinite. -/
theorem IsFinite.devKey_eq_infinite_iff {v : Version} (h : v.IsFinite) :
    v.devKey = .infinite ↔ v.dev = none := by
  cases hdev : v.dev with
  | none => simp [devKey, hdev]
  | some n => simpa [devKey, hdev] using h.dev_ne_infinite hdev

/-- A version without pre-release takes one of the two outer places, and no pre-release does. -/
theorem preKey_length_eq_one_iff {v : Version} : v.preKey.length = 1 ↔ v.pre = none := by
  unfold preKey
  split <;> simp_all

/-- **Same versions are equally stable**, as long as no number is past the range. -/
theorem isStable_eq_of_isSame {a b : Version} (ha : a.IsFinite) (hb : b.IsFinite)
    (h : a.isSame b = true) : a.isStable = b.isStable := by
  obtain ⟨-, -, hpre, -, hdev, -⟩ := isSame_iff_keys.1 h
  have hnopre : a.pre = none ↔ b.pre = none := by
    rw [← preKey_length_eq_one_iff, ← preKey_length_eq_one_iff, hpre]
  have hnodev : a.dev = none ↔ b.dev = none := by
    rw [← ha.devKey_eq_infinite_iff, ← hb.devKey_eq_infinite_iff, hdev]
  rw [Bool.eq_iff_iff]
  simp only [isStable, Bool.and_eq_true, Option.isNone_iff_eq_none, hnopre, hnodev]

/-! ### Where the numbers come from -/

/-- A run of digits of the text denotes the number. -/
def HasNumber (cs : List Char) (n : Magnitude) : Prop :=
  ∃ ds, ds <:+: cs ∧ (∀ d ∈ ds, d.isDigit = true) ∧ n = .ofDigits ds

theorem HasNumber.of_suffix {cs rest : List Char} {n : Magnitude} (h : HasNumber rest n)
    (hrest : rest <:+ cs) : HasNumber cs n := by
  obtain ⟨ds, hds, hdigits, hn⟩ := h
  exact ⟨ds, hds.trans hrest.isInfix, hdigits, hn⟩

/-- A reader that takes numbers from the front of a text leaves an end of it, and its numbers are
denoted by digits of the text. -/
structure Reads (cs : List Char) (ns : List Magnitude) (rest : List Char) : Prop where
  suffix : rest <:+ cs
  hasNumber : ∀ n ∈ ns, HasNumber cs n

theorem Reads.skip {cs rest : List Char} (h : rest <:+ cs) : Reads cs [] rest :=
  ⟨h, fun _ hn ↦ absurd hn List.not_mem_nil⟩

/-- Readings compose. -/
theorem Reads.trans {cs mid rest : List Char} {ns ms : List Magnitude} (h : Reads cs ns mid)
    (h' : Reads mid ms rest) : Reads cs (ns ++ ms) rest where
  suffix := h'.suffix.trans h.suffix
  hasNumber n hn := by
    rcases List.mem_append.1 hn with hn | hn
    · exact h.hasNumber n hn
    · exact (h'.hasNumber n hn).of_suffix h.suffix

theorem spanDigits_reads (cs : List Char) :
    Reads cs [.ofDigits (spanDigits cs).1] (spanDigits cs).2 where
  suffix := List.dropWhile_suffix _
  hasNumber _ hn :=
    ⟨_, (List.takeWhile_prefix _).isInfix, fun _ hd ↦ List.mem_takeWhile_imp hd,
      List.mem_singleton.1 hn⟩

theorem skipSeparator_suffix (cs : List Char) : skipSeparator cs <:+ cs := by
  unfold skipSeparator
  split
  · exact List.suffix_rfl
  · split
    · exact List.suffix_cons _ _
    · exact List.suffix_rfl

theorem skipMark_suffix (cs : List Char) : skipMark cs <:+ cs := by
  unfold skipMark
  split
  · split
    · exact List.suffix_cons _ _
    · exact List.suffix_rfl
  · exact List.suffix_rfl

theorem segment?_reads {cs rest : List Char} {n : Magnitude}
    (h : segment? cs = some (n, rest)) : Reads cs [n] rest := by
  unfold segment? at h
  split at h
  · cases h
  · rename_i ds r _ heq
    simp only [Option.some.injEq, Prod.mk.injEq] at h
    have hread := spanDigits_reads cs
    rwa [heq, h.1, h.2] at hread

/-- A left-out epoch counts as the number that no digits denote. -/
theorem spanEpoch_reads (cs : List Char) : Reads cs [(spanEpoch cs).1] (spanEpoch cs).2 := by
  unfold spanEpoch
  split
  · rename_i d ds rest heq
    have hread := spanDigits_reads cs
    simp only [heq] at hread ⊢
    have hmark := hread.trans (.skip (List.suffix_cons '!' rest))
    rwa [List.append_nil] at hmark
  · refine ⟨List.suffix_rfl, fun n hn ↦ ⟨[], List.nil_infix, by simp, ?_⟩⟩
    rw [List.mem_singleton.1 hn, Magnitude.ofDigits, Magnitude.digitsValue, List.foldl_nil]

theorem moreSegments_reads (cs : List Char) :
    Reads cs (moreSegments cs).1 (moreSegments cs).2 := by
  fun_induction moreSegments cs with
  | case1 tail n rest heq ns rest' _ ih =>
    have hsegment : Reads ('.' :: tail) [n] rest :=
      (Reads.skip (List.suffix_cons '.' tail)).trans (segment?_reads heq)
    simpa [*] using hsegment.trans ih
  | case2 => exact .skip List.suffix_rfl
  | case3 => exact .skip List.suffix_rfl

theorem release?_reads {cs rest : List Char} {ns : List Magnitude}
    (h : release? cs = some (ns, rest)) : Reads cs ns rest := by
  simp only [release?, Option.bind_eq_bind, Option.pure_def, Option.bind_eq_some_iff,
    Option.some.injEq, Prod.mk.injEq] at h
  obtain ⟨⟨n, mid⟩, hsegment, rfl, rfl⟩ := h
  exact (segment?_reads hsegment).trans (moreSegments_reads mid)

theorem firstWord?_suffix {α : Type} {words : List (String × α)} {cs rest : List Char}
    {meaning : α} (h : Text.firstWord? words cs = some (meaning, rest)) : rest <:+ cs := by
  obtain ⟨⟨word, meaning'⟩, -, hword⟩ := List.exists_of_findSome?_eq_some h
  obtain ⟨rest', hstrip, hpair⟩ := Option.map_eq_some_iff.1 hword
  obtain ⟨taken, rfl, -⟩ := Text.stripWord?_eq_some.1 hstrip
  cases hpair
  exact List.suffix_append taken rest

theorem labelled?_reads {α : Type} {words : List (String × α)} {cs rest : List Char} {meaning : α}
    {n : Magnitude} (h : labelled? words cs = some ((meaning, n), rest)) : Reads cs [n] rest := by
  obtain ⟨⟨meaning', mid⟩, hword, hpair⟩ := Option.map_eq_some_iff.1 h
  simp only [Prod.mk.injEq] at hpair
  obtain ⟨⟨-, hn⟩, hrest⟩ := hpair
  have hskip : skipSeparator mid <:+ cs :=
    (skipSeparator_suffix mid).trans ((firstWord?_suffix hword).trans (skipSeparator_suffix cs))
  have hread := (Reads.skip hskip).trans (spanDigits_reads (skipSeparator mid))
  rwa [List.nil_append, hn, hrest] at hread

theorem spanPre_reads (cs : List Char) :
    Reads cs ((spanPre cs).1.map PreRelease.number).toList (spanPre cs).2 := by
  unfold spanPre
  split
  · exact labelled?_reads ‹_›
  · exact .skip List.suffix_rfl

theorem labelledPost_reads (cs : List Char) :
    Reads cs (spanPost.labelledPost cs).1.toList (spanPost.labelledPost cs).2 := by
  unfold spanPost.labelledPost
  split
  · exact labelled?_reads ‹_›
  · exact .skip List.suffix_rfl

theorem spanPost_reads (cs : List Char) : Reads cs (spanPost cs).1.toList (spanPost cs).2 := by
  unfold spanPost
  split
  · rename_i tail
    split
    · exact (Reads.skip (List.suffix_cons '-' tail)).trans (segment?_reads ‹_›)
    · exact labelledPost_reads _
  · exact labelledPost_reads _

theorem spanDev_reads (cs : List Char) : Reads cs (spanDev cs).1.toList (spanDev cs).2 := by
  unfold spanDev
  split
  · exact labelled?_reads ‹_›
  · exact .skip List.suffix_rfl

/-- A run of letters and digits is a number only when it consists of digits. -/
theorem hasNumber_of_localPart {run : List Char} {n : Magnitude}
    (h : (localPart run).number? = some n) : HasNumber run n := by
  unfold localPart at h
  split at h
  · rename_i hdigits
    exact ⟨run, List.infix_rfl, List.all_eq_true.1 hdigits, (Option.some.inj h).symm⟩
  · cases h

theorem localRun?_reads {cs rest : List Char} {p : LocalPart}
    (h : localRun? cs = some (p, rest)) : Reads cs p.number?.toList rest := by
  unfold localRun? at h
  split at h
  · cases h
  · simp only [Option.some.injEq, Prod.mk.injEq] at h
    refine ⟨h.2 ▸ List.dropWhile_suffix _, fun n hn ↦ ?_⟩
    obtain ⟨ds, hds, hdigits⟩ :=
      hasNumber_of_localPart (h.1 ▸ Option.mem_toList.1 hn : (localPart _).number? = some n)
    exact ⟨ds, hds.trans (List.takeWhile_prefix _).isInfix, hdigits⟩

theorem moreLocal_reads (cs : List Char) :
    Reads cs ((moreLocal cs).1.filterMap LocalPart.number?) (moreLocal cs).2 := by
  fun_induction moreLocal cs with
  | case1 c tail _ p rest heq ps rest' _ ih =>
    have hpart : Reads (c :: tail) p.number?.toList rest :=
      (Reads.skip (List.suffix_cons c tail)).trans (localRun?_reads heq)
    have hparts := hpart.trans ih
    cases hp : p.number? <;> simpa [hp, *] using hparts
  | case2 => exact .skip List.suffix_rfl
  | case3 => exact .skip List.suffix_rfl
  | case4 => exact .skip List.suffix_rfl

theorem spanLocal_reads (cs : List Char) :
    Reads cs ((spanLocal cs).1.elim [] (·.filterMap LocalPart.number?)) (spanLocal cs).2 := by
  unfold spanLocal
  split
  · rename_i tail
    split
    · rename_i p rest heq
      have hpart : Reads ('+' :: tail) p.number?.toList rest :=
        (Reads.skip (List.suffix_cons '+' tail)).trans (localRun?_reads heq)
      have hparts := hpart.trans (moreLocal_reads rest)
      cases hp : p.number? <;> simpa [hp] using hparts
    · exact .skip List.suffix_rfl
  · exact .skip List.suffix_rfl

/-- **Every number of a version that was read is denoted by digits of the text.** -/
theorem hasNumber_of_parse? {text : String} {v : Version} (h : parse? text = some v) :
    ∀ n ∈ v.numbers, HasNumber text.toList n := by
  simp only [parse?, Option.bind_eq_bind, Option.pure_def, Option.bind_eq_some_iff] at h
  obtain ⟨⟨release, cs⟩, hrelease, h⟩ := h
  split at h
  · cases h
    have hstart : skipMark (Text.trimStart text.toList) <:+ text.toList :=
      (skipMark_suffix _).trans (List.dropWhile_suffix _)
    have hreads := (((((Reads.skip hstart).trans (spanEpoch_reads _)).trans
      (release?_reads hrelease)).trans (spanPre_reads cs)).trans
        (spanPost_reads _)).trans (spanDev_reads _) |>.trans (spanLocal_reads _)
    exact hreads.hasNumber
  · cases h

/-- **A text whose runs of digits have at most 308 digits gives finite numbers only.** -/
theorem isFinite_of_parse? {text : String} {v : Version} (h : parse? text = some v)
    (hruns : ∀ ds, ds <:+: text.toList → (∀ d ∈ ds, d.isDigit = true) → ds.length ≤ 308) :
    v.IsFinite := by
  intro n hn
  obtain ⟨ds, hds, hdigits, hvalue⟩ := hasNumber_of_parse? h n hn
  rw [hvalue]
  exact Magnitude.ofDigits_ne_infinite hdigits (hruns ds hds hdigits)

/-- A version that was read has a release segment. -/
theorem release_ne_nil_of_parse? {text : String} {v : Version} (h : parse? text = some v) :
    v.release ≠ [] := by
  simp only [parse?, release?, Option.bind_eq_bind, Option.pure_def, Option.bind_eq_some_iff,
    Option.some.injEq] at h
  obtain ⟨⟨release, cs⟩, ⟨⟨n, mid⟩, -, rfl, -⟩, h⟩ := h
  split at h
  · cases h
    exact List.cons_ne_nil _ _
  · cases h

end Version

end IndexSnapshot
