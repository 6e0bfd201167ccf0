import IndexSnapshot.Proofs.Number.Digits
import IndexSnapshot.Proofs.Text.Split
import IndexSnapshot.Url.Address

/-!
# Written addresses

An address of four bytes and an address of eight pieces are read back from their written forms
(`Ipv4.parse?_text`, `Ipv6.parse?_text`). In the second form a run of zero pieces may be left out;
the reader puts as many zeros in as are missing, so that it does not matter which run it was.
-/

namespace IndexSnapshot

/-! ### Four bytes -/

namespace Ipv4

/-- The byte of an address at a place, the least one at place zero. -/
def byte (address i : ℕ) : ℕ := address / 256 ^ i % 256

theorem text_eq (address : ℕ) : text address =
    Nat.toDigits 10 (byte address 3) ++ '.' :: (Nat.toDigits 10 (byte address 2) ++
      '.' :: (Nat.toDigits 10 (byte address 1) ++ '.' :: Nat.toDigits 10 (byte address 0))) := by
  simp [text, byte, List.append_assoc]

theorem of_mem_text {address : ℕ} {c : Char} (h : c ∈ text address) :
    c = '.' ∨ c.isDigit = true := by
  have hdigit : ∀ n, c ∈ Nat.toDigits 10 n → c.isDigit = true := fun n ↦
    Nat.isDigit_of_mem_toDigits (by decide) (by decide)
  simp only [text, List.mem_append, List.mem_cons] at h
  tauto

theorem isPoint_of_mem_toDigits {c : Char} {n : ℕ} (h : c ∈ Nat.toDigits 10 n) :
    decide (c = '.') = false := by
  have hdigit := Nat.isDigit_of_mem_toDigits (by decide) (by decide) h
  refine decide_eq_false ?_
  rintro rfl
  cases hdigit

theorem parts_text (address : ℕ) : parts (text address) =
    [3, 2, 1, 0].map fun i ↦ Nat.toDigits 10 (byte address i) := by
  have hpiece : ∀ n, Text.splitAtMarks (· = '.') (Nat.toDigits 10 n) = [Nat.toDigits 10 n] :=
    fun n ↦ Text.splitAtMarks_of_forall fun c ↦ isPoint_of_mem_toDigits
  have hsplit : Text.splitAtMarks (· = '.') (text address) =
      [3, 2, 1, 0].map fun i ↦ Nat.toDigits 10 (byte address i) := by
    rw [text_eq, Text.splitAtMarks_append_mark rfl, Text.splitAtMarks_append_mark rfl,
      Text.splitAtMarks_append_mark rfl, hpiece, hpiece, hpiece, hpiece]
    rfl
  have hlast : Nat.toDigits 10 (byte address 0) ≠ [] := Nat.toDigits_ne_nil
  rw [parts, hsplit]
  simp [hlast]

theorem number?_toDigits (n : ℕ) : number? (Nat.toDigits 10 n) = some n := by
  rcases Nat.eq_zero_or_pos n with rfl | hn
  · rfl
  · obtain ⟨c, cs, hcs, hc⟩ := Number.exists_toDigits_eq_cons (b := 10) (by decide) (by decide) hn
    have hvalue := Number.valueIn?_toDigits (b := 10) (by decide) (by decide) n
    rw [hcs] at hvalue ⊢
    unfold number?
    split
    · rename_i heq
      cases heq
    · rename_i heq
      cases heq
      exact absurd rfl hc
    · rename_i heq
      cases heq
      exact absurd rfl hc
    · exact hvalue

theorem isNumeric_text (address : ℕ) : isNumeric (text address) = true := by
  have hne : Nat.toDigits 10 (byte address 0) ≠ [] := Nat.toDigits_ne_nil
  have hall : (Nat.toDigits 10 (byte address 0)).all Char.isDigit = true :=
    List.all_eq_true.2 fun c hc ↦ Nat.isDigit_of_mem_toDigits (by decide) (by decide) hc
  rw [isNumeric, parts_text]
  simp [hne, hall]

/-- **An address is read back from its written form.** -/
theorem parse?_text {address : ℕ} (h : address < 2 ^ 32) :
    parse? (text address) = some address := by
  have hnumbers : (parts (text address)).mapM number? =
      some [byte address 3, byte address 2, byte address 1, byte address 0] := by
    rw [parts_text]
    simp [number?_toDigits]
  have hlt : ∀ i, byte address i < 256 := fun i ↦ Nat.mod_lt _ (by decide)
  have hleading : bytes? [byte address 3, byte address 2, byte address 1] =
      some (256 * (256 * byte address 3 + byte address 2) + byte address 1) := by
    simp [bytes?, hlt]
  have hvalue : (256 * (256 * byte address 3 + byte address 2) + byte address 1) * 256 +
      byte address 0 = address := by
    simp only [byte, Nat.reducePow]
    omega
  rw [parse?, hnumbers]
  show (if 4 < 4 then none else _) = _
  rw [if_neg (by decide)]
  show ((bytes? [byte address 3, byte address 2, byte address 1]).bind _) = _
  rw [hleading]
  show (if byte address 0 < 256 then some _ else none) = _
  rw [if_pos (hlt 0)]
  exact congrArg some hvalue

/-- Every byte makes room for the next. -/
theorem bytes?_lt {numbers : List ℕ} {n : ℕ} (h : bytes? numbers = some n) :
    n < 256 ^ numbers.length := by
  induction numbers using List.reverseRec generalizing n with
  | nil =>
    cases h
    exact Nat.one_pos
  | append_singleton numbers b ih =>
    rw [bytes?, List.foldlM_append] at h
    obtain ⟨m, hm, h⟩ := Option.bind_eq_some_iff.1 h
    have hlt := ih hm
    simp only [List.foldlM_cons, List.foldlM_nil] at h
    split at h
    · rename_i hb
      cases h
      rw [List.length_append, List.length_singleton, Nat.pow_succ']
      omega
    · cases h

theorem lt_of_parse? {host : List Char} {address : ℕ} (h : parse? host = some address) :
    address < 2 ^ 32 := by
  obtain ⟨numbers, -, h⟩ := Option.bind_eq_some_iff.1 h
  split at h
  · cases h
  · rename_i hfew
    obtain ⟨last, hlast, h⟩ := Option.bind_eq_some_iff.1 h
    obtain ⟨leading, hleading, h⟩ := Option.bind_eq_some_iff.1 h
    have hlt := bytes?_lt hleading
    rw [List.length_dropLast] at hlt
    have hne : 0 < numbers.length := by
      rw [List.length_pos_iff]
      rintro rfl
      cases hlast
    dsimp only at h
    split at h
    · rename_i hfree
      cases h
      -- the last number fills the bytes that the numbers before it leave
      have hall : 256 ^ (numbers.length - 1) * 256 ^ (5 - numbers.length) = 2 ^ 32 := by
        rw [← Nat.pow_add, show numbers.length - 1 + (5 - numbers.length) = 4 by omega]
        rfl
      calc leading * 256 ^ (5 - numbers.length) + last
          < (leading + 1) * 256 ^ (5 - numbers.length) := by
            rw [Nat.add_mul, Nat.one_mul]
            exact Nat.add_lt_add_left hfree _
        _ ≤ 256 ^ (numbers.length - 1) * 256 ^ (5 - numbers.length) :=
            Nat.mul_le_mul_right _ hlt
        _ = 2 ^ 32 := hall
    · cases h

end Ipv4

/-! ### Eight pieces -/

namespace Ipv6

/-- Eight pieces of sixteen bits. -/
structure IsAddress (pieces : List ℕ) : Prop where
  length_eq : pieces.length = 8
  lt_of_mem : ∀ piece ∈ pieces, piece < 65536

/-! #### Runs of zeros -/

theorem take_leadingZeros (pieces : List ℕ) :
    pieces.take (leadingZeros pieces) = List.replicate (leadingZeros pieces) 0 := by
  rw [leadingZeros, ← List.prefix_iff_eq_take.1 (List.takeWhile_prefix _)]
  refine List.eq_replicate_of_mem fun piece hpiece ↦ ?_
  exact of_decide_eq_true (List.mem_takeWhile_imp (p := fun n ↦ decide (n = 0)) hpiece)

/-- The run that is left out consists of zeros. -/
theorem longestZeros_spec (place : ℕ) (pieces : List ℕ) :
    ∃ k, (longestZeros place pieces).1 = place + k ∧
      (pieces.drop k).take (longestZeros place pieces).2 =
        List.replicate (longestZeros place pieces).2 0 := by
  induction pieces generalizing place with
  | nil => exact ⟨0, rfl, rfl⟩
  | cons piece rest ih =>
    obtain ⟨k, hplace, hzeros⟩ := ih (place + 1)
    rw [longestZeros]
    dsimp only
    split
    · exact ⟨0, rfl, take_leadingZeros _⟩
    · exact ⟨k + 1, by rw [hplace]; omega, by rwa [List.drop_succ_cons]⟩

/-! #### Reading pieces -/

variable {piece : ℕ} {pieces done : List ℕ} {gap : Option ℕ} {steps : ℕ} {rest : List Char}

theorem isSome_digitValue?_of_mem {c : Char} (h : c ∈ Nat.toDigits 16 piece) :
    (Number.digitValue? c).isSome = true := by
  obtain ⟨d, hd, rfl⟩ := Number.exists_of_mem_toDigits (by decide) h
  rw [Number.digitValue?_digitChar hd]
  rfl

theorem join_cons_cons (piece next : ℕ) (pieces : List ℕ) :
    join (piece :: next :: pieces) = Nat.toDigits 16 piece ++ ':' :: join (next :: pieces) := by
  simp [join, List.intercalate_cons_cons]

/-- A piece is what stands before the next colon. -/
theorem spanHex_toDigits (hpiece : piece < 65536)
    (hrest : rest = [] ∨ ∃ tail, rest = ':' :: tail) :
    spanHex (Nat.toDigits 16 piece ++ rest) = (Nat.toDigits 16 piece, rest) := by
  have hlength : (Nat.toDigits 16 piece).length ≤ 4 :=
    (Nat.length_toDigits_le_iff (by decide) (by decide)).2 hpiece
  have hhex : ∀ c ∈ Nat.toDigits 16 piece, (Number.digitValue? c).isSome = true := fun c ↦
    isSome_digitValue?_of_mem
  -- however many of the four places are left, a colon does not fill them
  have hstop : ∀ n, (rest.take n).takeWhile (fun c ↦ (Number.digitValue? c).isSome) = [] := by
    intro n
    rcases hrest with rfl | ⟨tail, rfl⟩
    · rw [List.take_nil]
      rfl
    · cases n with
      | zero => rfl
      | succ n => exact List.takeWhile_cons_of_neg (by decide)
  have hdigits : ((Nat.toDigits 16 piece ++ rest).take 4).takeWhile
      (fun c ↦ (Number.digitValue? c).isSome) = Nat.toDigits 16 piece := by
    rw [List.take_append, List.take_of_length_le hlength, List.takeWhile_append_of_pos hhex, hstop,
      List.append_nil]
  rw [spanHex, hdigits, List.drop_left]

theorem exists_toDigits_eq_cons (piece : ℕ) :
    ∃ c cs, Nat.toDigits 16 piece = c :: cs ∧ c ≠ ':' := by
  obtain ⟨c, cs, hcs⟩ := List.exists_cons_of_ne_nil (Nat.toDigits_ne_nil (n := piece) (b := 16))
  refine ⟨c, cs, hcs, ?_⟩
  rintro rfl
  have hcolon := isSome_digitValue?_of_mem (hcs ▸ List.mem_cons_self)
  cases hcolon

/-- One piece and the colon behind it are read. -/
theorem pieces?_cons (hpiece : piece < 65536) (hrest : rest ≠ []) :
    pieces? (steps + 1) done gap (Nat.toDigits 16 piece ++ ':' :: rest) =
      pieces? steps (piece :: done) gap rest := by
  have hspan := spanHex_toDigits hpiece (.inr ⟨rest, rfl⟩)
  have hvalue := Number.valueIn?_toDigits (b := 16) (by decide) (by decide) piece
  obtain ⟨c, cs, hcs, hc⟩ := exists_toDigits_eq_cons piece
  rw [hcs, List.cons_append] at hspan ⊢
  rw [pieces?]
  · simp [hspan, ← hcs, hvalue, hrest]
  · exact List.cons_ne_nil _ _
  · rintro tail heq
    exact hc (List.head_eq_of_cons_eq heq)

/-- A piece ends the text. -/
theorem pieces?_last (hpiece : piece < 65536) :
    pieces? (steps + 1) done gap (Nat.toDigits 16 piece) =
      some ((piece :: done).reverse, gap) := by
  have hspan := spanHex_toDigits hpiece (.inl rfl)
  have hvalue := Number.valueIn?_toDigits (b := 16) (by decide) (by decide) piece
  obtain ⟨c, cs, hcs, hc⟩ := exists_toDigits_eq_cons piece
  rw [List.append_nil, hcs] at hspan
  rw [hcs] at hvalue ⊢
  rw [pieces?]
  · simp [hspan, hvalue, pieces?]
  · exact List.cons_ne_nil _ _
  · rintro tail heq
    exact hc (List.head_eq_of_cons_eq heq)

theorem exists_join_eq_cons (piece : ℕ) (pieces : List ℕ) :
    ∃ c cs, join (piece :: pieces) = c :: cs ∧ c ≠ ':' := by
  obtain ⟨c, cs, hcs, hc⟩ := exists_toDigits_eq_cons piece
  cases pieces with
  | nil => exact ⟨c, cs, by simp [join, hcs], hc⟩
  | cons next pieces =>
    exact ⟨c, cs ++ ':' :: join (next :: pieces), by rw [join_cons_cons, hcs]; rfl, hc⟩

theorem of_mem_join {c : Char} (h : c ∈ join pieces) : c = ':' ∨ c.isAlphanum = true := by
  have hdigit : ∀ n, c ∈ Nat.toDigits 16 n → c.isAlphanum = true := fun n ↦
    Number.isAlphanum_of_mem_toDigits (by decide) (by decide)
  rcases Text.of_mem_intercalate h with h | ⟨digits, hdigits, hc⟩
  · exact .inl h
  · obtain ⟨piece, -, rfl⟩ := List.mem_map.1 hdigits
    exact .inr (hdigit piece hc)

theorem of_mem_text {c : Char} (h : c ∈ text pieces) : c = ':' ∨ c.isAlphanum = true := by
  unfold text at h
  dsimp only at h
  split at h
  · exact of_mem_join h
  · simp only [List.mem_append, List.mem_cons] at h
    rcases h with h | rfl | rfl | h
    · exact of_mem_join h
    · exact .inl rfl
    · exact .inl rfl
    · exact of_mem_join h

/-- **Pieces between colons are read one after the other.** -/
theorem pieces?_join_append (hpieces : ∀ piece ∈ pieces, piece < 65536) (hne : pieces ≠ [])
    (hrest : rest ≠ []) : pieces? (pieces.length + steps) done gap (join pieces ++ ':' :: rest) =
      pieces? steps (pieces.reverse ++ done) gap rest := by
  induction pieces generalizing done with
  | nil => exact absurd rfl hne
  | cons piece pieces ih =>
    have hpiece := hpieces piece List.mem_cons_self
    rw [List.length_cons, Nat.add_right_comm]
    cases pieces with
    | nil =>
      rw [show join [piece] = Nat.toDigits 16 piece by simp [join], pieces?_cons hpiece hrest,
        List.length_nil, Nat.zero_add]
      rfl
    | cons next pieces =>
      have ih := @ih (piece :: done) (fun p hp ↦ hpieces p (List.mem_cons_of_mem piece hp))
        (List.cons_ne_nil _ _)
      rw [join_cons_cons, List.append_assoc, List.cons_append, pieces?_cons hpiece (by simp), ih]
      simp

/-- Pieces between colons that end the text. -/
theorem pieces?_join (hpieces : ∀ piece ∈ pieces, piece < 65536) :
    pieces? (pieces.length + steps) done gap (join pieces) =
      some (done.reverse ++ pieces, gap) := by
  induction pieces generalizing done with
  | nil => rw [show join [] = [] from rfl, pieces?, List.append_nil]
  | cons piece pieces ih =>
    have hpiece := hpieces piece List.mem_cons_self
    rw [List.length_cons, Nat.add_right_comm]
    cases pieces with
    | nil =>
      rw [show join [piece] = Nat.toDigits 16 piece by simp [join], pieces?_last hpiece,
        List.reverse_cons]
    | cons next pieces =>
      have ih := @ih (piece :: done) (fun p hp ↦ hpieces p (List.mem_cons_of_mem piece hp))
      have hne : join (next :: pieces) ≠ [] := by
        obtain ⟨c, cs, hcs, -⟩ := exists_join_eq_cons next pieces
        exact hcs ▸ List.cons_ne_nil c cs
      rw [join_cons_cons, pieces?_cons hpiece hne, ih, List.reverse_cons, List.append_assoc,
        List.singleton_append]

theorem parse?_colons (rest : List Char) :
    parse? (':' :: ':' :: rest) = (pieces? 7 [0] (some 1) rest).bind fill? := rfl

theorem parse?_of_ne_colon {c : Char} (hc : c ≠ ':') (rest : List Char) :
    parse? (c :: rest) = (pieces? 8 [] none (c :: rest)).bind fill? := by
  rw [parse?]
  · rfl
  · rintro tail heq
    exact hc (List.head_eq_of_cons_eq heq)
  · rintro tail heq
    exact hc (List.head_eq_of_cons_eq heq)

/-- The zeros that are missing are put in behind the one that stands for the gap. -/
theorem fill?_gap {front back : List ℕ} (hlength : front.length + back.length < 8) :
    fill? (front ++ 0 :: back, some (front.length + 1)) =
      some (front ++ List.replicate (8 - front.length - back.length) 0 ++ back) := by
  have htake : (front ++ 0 :: back).take (front.length + 1) = front ++ [0] := by
    rw [List.take_append, List.take_of_length_le (by omega)]
    simp
  have hdrop : (front ++ 0 :: back).drop (front.length + 1) = back := by
    rw [List.drop_append, List.drop_of_length_le (by omega)]
    simp
  have hmissing : 8 - front.length - back.length = 8 - (front ++ 0 :: back).length + 1 := by
    rw [List.length_append, List.length_cons]
    omega
  rw [fill?, htake, hdrop, hmissing, List.replicate_succ]
  simp

/-- The gap is read as one piece. -/
theorem parse?_gap {front back : List ℕ} (hfront : ∀ piece ∈ front, piece < 65536)
    (hback : ∀ piece ∈ back, piece < 65536) (hlength : front.length + back.length < 8) :
    parse? (join front ++ ':' :: ':' :: join back) =
      some (front ++ List.replicate (8 - front.length - back.length) 0 ++ back) := by
  -- a step for each piece, one for the gap, and some to spare
  obtain ⟨steps, hsteps⟩ : ∃ steps, 8 = front.length + (back.length + steps + 1) :=
    ⟨7 - front.length - back.length, by omega⟩
  have hread : ∀ {done : List ℕ} {gap : Option ℕ}, pieces? (back.length + steps) done gap
      (join back) = some (done.reverse ++ back, gap) := pieces?_join hback
  cases front with
  | nil =>
    -- a gap at the front has been read before the first step
    have hsteps : 7 = back.length + steps := by
      rw [List.length_nil] at hsteps
      omega
    rw [show join [] = [] from rfl, List.nil_append, parse?_colons, hsteps, hread]
    exact fill?_gap hlength
  | cons piece front =>
    have hjoin : pieces? 8 [] none (join (piece :: front) ++ ':' :: ':' :: join back) =
        pieces? (back.length + steps + 1) ((piece :: front).reverse ++ []) none
          (':' :: join back) := by
      rw [hsteps]
      exact pieces?_join_append hfront (List.cons_ne_nil _ _) (List.cons_ne_nil _ _)
    obtain ⟨c, cs, hcs, hc⟩ := exists_join_eq_cons piece front
    rw [hcs, List.cons_append] at hjoin ⊢
    rw [parse?_of_ne_colon hc, hjoin, pieces?, if_neg (by simp), hread, List.append_nil,
      List.length_reverse, List.reverse_cons, List.reverse_reverse, List.append_assoc]
    exact fill?_gap hlength

/-- **An address is read back from its written form.** -/
theorem parse?_text (h : IsAddress pieces) : parse? (text pieces) = some pieces := by
  obtain ⟨k, hplace, hzeros⟩ := longestZeros_spec 0 pieces
  have hlength := h.length_eq
  rw [text]
  dsimp only
  split
  · obtain ⟨piece, rest, rfl⟩ : ∃ piece rest, pieces = piece :: rest :=
      List.exists_cons_of_length_eq_add_one hlength
    obtain ⟨c, cs, hcs, hc⟩ := exists_join_eq_cons piece rest
    have hread : pieces? ((piece :: rest).length + 0) [] none (join (piece :: rest)) =
        some (piece :: rest, none) := pieces?_join h.lt_of_mem
    rw [hlength, hcs] at hread
    rw [hcs, parse?_of_ne_colon hc, hread, Option.bind_some, fill?, if_pos hlength]
  · -- the `n` zeros from place `k` on are left out
    rename_i hlong
    rw [hplace, Nat.zero_add]
    generalize (longestZeros 0 pieces).2 = n at hzeros hlong ⊢
    have hroom : k + n ≤ 8 := by
      have hcount := congrArg List.length hzeros
      rw [List.length_take, List.length_drop, List.length_replicate, hlength] at hcount
      omega
    have hfront : (pieces.take k).length = k := by
      rw [List.length_take, hlength]
      omega
    have hback : (pieces.drop (k + n)).length = 8 - (k + n) := by rw [List.length_drop, hlength]
    have hmissing : 8 - k - (8 - (k + n)) = n := by omega
    rw [parse?_gap (fun p hp ↦ h.lt_of_mem p (List.mem_of_mem_take hp))
      (fun p hp ↦ h.lt_of_mem p (List.mem_of_mem_drop hp)) (by omega), hfront, hback, hmissing,
      ← hzeros, ← List.drop_drop, List.append_assoc, List.take_append_drop, List.take_append_drop]

/-! #### What is read -/

theorem byte?_lt {cs : List Char} {n : ℕ} (h : byte? cs = some n) : n < 256 := by
  unfold byte? at h
  split at h
  · cases h
  · cases h
  · exact of_decide_eq_true (Option.filter_eq_some_iff.1 h).2

theorem embedded?_spec {cs : List Char} {pair : List ℕ} (h : embedded? cs = some pair) :
    pair.length = 2 ∧ ∀ piece ∈ pair, piece < 65536 := by
  unfold embedded? at h
  split at h
  · rename_i a b c d hbytes
    have hlt := Text.forall_mem_of_mapM (P := (· < 256)) (fun _ _ ↦ byte?_lt) hbytes
    simp only [List.mem_cons, List.not_mem_nil, or_false, forall_eq_or_imp, forall_eq] at hlt
    cases h
    refine ⟨rfl, ?_⟩
    simp only [List.mem_cons, List.not_mem_nil, or_false, forall_eq_or_imp, forall_eq]
    omega
  · cases h

theorem value_lt {digits : List Char} (h : digits.length ≤ 4) :
    (Number.valueIn? 16 digits).getD 0 < 65536 := by
  cases hvalue : Number.valueIn? 16 digits with
  | none => exact Nat.zero_lt_succ _
  | some n => exact (Number.valueIn?_lt hvalue).trans_le (Nat.pow_le_pow_right (by decide) h)

theorem length_spanHex_le (cs : List Char) : (spanHex cs).1.length ≤ 4 :=
  (List.takeWhile_sublist _).length_le.trans (List.length_take_le 4 cs)

/-- What is read are pieces, and no more than there is room for. -/
theorem pieces?_spec {cs : List Char} {read : List ℕ × Option ℕ}
    (h : pieces? steps done gap cs = some read) (hroom : done.length + steps ≤ 8)
    (hdone : ∀ piece ∈ done, piece < 65536) :
    read.1.length ≤ 8 ∧ ∀ piece ∈ read.1, piece < 65536 := by
  -- a piece takes the place of a step, so that the room stays the same
  have hmore : ∀ {done : List ℕ} {piece n : ℕ}, piece < 65536 → done.length + n.succ ≤ 8 →
      (∀ p ∈ done, p < 65536) →
        (piece :: done).length + n ≤ 8 ∧ ∀ p ∈ piece :: done, p < 65536 := by
    intro done piece n hpiece hroom hdone
    exact ⟨by rw [List.length_cons]; omega, List.forall_mem_cons.2 ⟨hpiece, hdone⟩⟩
  have hvalue : ∀ {cs digits rest : List Char}, spanHex cs = (digits, rest) →
      (Number.valueIn? 16 digits).getD 0 < 65536 := by
    intro cs digits rest hspan
    have hlength := length_spanHex_le cs
    rw [hspan] at hlength
    exact value_lt hlength
  fun_induction pieces? steps done gap cs with
  | case1 n done =>
    cases h
    exact ⟨by rw [List.length_reverse]; omega, fun p hp ↦ hdone p (List.mem_reverse.1 hp)⟩
  | case4 done gap n rest _ ih =>
    obtain ⟨hroom, hdone⟩ := hmore (Nat.zero_lt_succ _) hroom hdone
    exact ih h hroom hdone
  | case5 done gap n cs _ _ digits value hspan ih =>
    obtain ⟨hroom, hdone⟩ := hmore (hvalue hspan) hroom hdone
    exact ih h hroom hdone
  | case7 done gap n cs _ _ digits tail hfits hspan =>
    obtain ⟨pair, hpair, hread⟩ := Option.map_eq_some_iff.1 h
    obtain ⟨hlength, hlt⟩ := embedded?_spec hpair
    cases hread
    simp only [Bool.or_eq_true, decide_eq_true_iff, not_or, Nat.not_lt] at hfits
    refine ⟨by rw [List.length_append, List.length_reverse]; omega, fun p hp ↦ ?_⟩
    rcases List.mem_append.1 hp with hp | hp
    · exact hdone p (List.mem_reverse.1 hp)
    · exact hlt p hp
  | case9 done gap n cs _ _ digits value tail _ hspan ih =>
    obtain ⟨hroom, hdone⟩ := hmore (hvalue hspan) hroom hdone
    exact ih h hroom hdone
  | case2 | case3 | case6 | case8 | case10 => cases h

theorem isAddress_of_fill? {read : List ℕ × Option ℕ} (h : fill? read = some pieces)
    (hlength : read.1.length ≤ 8) (hread : ∀ piece ∈ read.1, piece < 65536) :
    IsAddress pieces := by
  obtain ⟨found, gap⟩ := read
  cases gap with
  | none =>
    rw [fill?] at h
    split at h
    · rename_i heq
      cases h
      exact ⟨heq, hread⟩
    · cases h
  | some gap =>
    cases h
    refine ⟨?_, fun piece hpiece ↦ ?_⟩
    · have hfound : found.length ≤ 8 := hlength
      simp only [List.length_append, List.length_replicate, List.length_take, List.length_drop]
      omega
    · simp only [List.mem_append, List.mem_replicate] at hpiece
      rcases hpiece with (hpiece | ⟨-, rfl⟩) | hpiece
      · exact hread piece (List.mem_of_mem_take hpiece)
      · exact Nat.zero_lt_succ _
      · exact hread piece (List.mem_of_mem_drop hpiece)

theorem isAddress_of_parse? {cs : List Char} (h : parse? cs = some pieces) : IsAddress pieces := by
  unfold parse? at h
  split at h
  · obtain ⟨read, hread, hfill⟩ := Option.bind_eq_some_iff.1 h
    have hspec := pieces?_spec hread (by simp) (by simp)
    exact isAddress_of_fill? hfill hspec.1 hspec.2
  · cases h
  · obtain ⟨read, hread, hfill⟩ := Option.bind_eq_some_iff.1 h
    have hspec := pieces?_spec hread (by simp) (by simp)
    exact isAddress_of_fill? hfill hspec.1 hspec.2

end Ipv6

end IndexSnapshot
