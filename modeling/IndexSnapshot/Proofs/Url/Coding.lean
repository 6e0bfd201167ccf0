import IndexSnapshot.Proofs.Url.Percent

/-!
# What can be decoded

A text is written in percent encoding when each of its characters is written as it is, the percent
sign apart, or as the bytes of its UTF-8 form, each as a percent sign and two hexadecimal digits.
These are the texts that are decoded, and to what they write (`decode?_eq_some_iff`). The bytes of
different characters never run into each other: no character begins with a byte that another one
goes on with.
-/

namespace IndexSnapshot.Percent

variable {c : Char} {cs coded text : List Char} {bytes : List UInt8}

/-- The bytes are written one behind the other, each as a percent sign and two digits. -/
inductive WritesBytes : List UInt8 → List Char → Prop
  | nil : WritesBytes [] []
  | cons {b : UInt8} {bytes : List UInt8} {high low : Char} {cs : List Char}
      (hb : byte? high low = some b) (h : WritesBytes bytes cs) :
      WritesBytes (b :: bytes) ('%' :: high :: low :: cs)

/-- The first text is written as the second one in percent encoding. -/
inductive Writes : List Char → List Char → Prop
  | nil : Writes [] []
  | plain {c : Char} {text cs : List Char} (hc : c ≠ '%') (h : Writes text cs) :
      Writes (c :: text) (c :: cs)
  | coded {c : Char} {text coded cs : List Char}
      (hc : WritesBytes (String.utf8EncodeChar c) coded) (h : Writes text cs) :
      Writes (c :: text) (coded ++ cs)

/-! ### Steps of the decoder -/

theorem decodeBytes_cons_of_ne (hc : c ≠ '%') (cs : List Char) :
    decodeBytes (c :: cs) = String.utf8EncodeChar c ++ decodeBytes cs := by
  rw [decodeBytes]
  exact fun _ _ _ heq _ ↦ hc heq

theorem isWellFormed_cons_of_ne (hc : c ≠ '%') (cs : List Char) :
    isWellFormed (c :: cs) = isWellFormed cs := by
  rw [isWellFormed, decide_eq_true hc, Bool.true_and]
  exact fun _ _ _ heq _ ↦ hc heq

theorem decodeBytes_percent {high low : Char} {b : UInt8} (hb : byte? high low = some b)
    (cs : List Char) : decodeBytes ('%' :: high :: low :: cs) = b :: decodeBytes cs := by
  rw [decodeBytes, hb]

theorem isWellFormed_percent {high low : Char} {b : UInt8} (hb : byte? high low = some b)
    (cs : List Char) : isWellFormed ('%' :: high :: low :: cs) = isWellFormed cs := by
  rw [isWellFormed, hb, Option.isSome_some, Bool.true_and]

/-- Behind a percent sign of a well-formed text stands a byte. -/
theorem exists_byte_of_isWellFormed (h : isWellFormed ('%' :: cs) = true) :
    ∃ high low rest b, cs = high :: low :: rest ∧ byte? high low = some b ∧
      isWellFormed rest = true := by
  match cs with
  | [] => cases h
  | [_] => cases h
  | high :: low :: rest =>
    rw [isWellFormed, Bool.and_eq_true] at h
    obtain ⟨b, hb⟩ := Option.isSome_iff_exists.1 h.1
    exact ⟨high, low, rest, b, rfl, hb, h.2⟩

theorem decodeBytes_eq_nil (hformed : isWellFormed cs = true) (h : decodeBytes cs = []) :
    cs = [] := by
  match cs with
  | [] => rfl
  | c :: cs =>
    by_cases hc : c = '%'
    · subst hc
      obtain ⟨high, low, rest, b, rfl, hb, -⟩ := exists_byte_of_isWellFormed hformed
      rw [decodeBytes_percent hb] at h
      cases h
    · rw [decodeBytes_cons_of_ne hc] at h
      exact absurd (List.append_eq_nil_iff.1 h).1 String.utf8EncodeChar_ne_nil

theorem ofUtf8?_eq_some_iff :
    ofUtf8? bytes = some text ↔ bytes = text.flatMap String.utf8EncodeChar := by
  constructor
  · intro h
    obtain ⟨decoded, hdecoded, rfl⟩ := Option.map_eq_some_iff.1 h
    have hbytes : decoded.toList.utf8Encode = bytes.toByteArray := by
      have hsome : bytes.toByteArray.utf8Decode?.isSome = true := by rw [hdecoded]; rfl
      rw [← Option.get_of_mem hsome hdecoded, ByteArray.utf8Encode_get_utf8Decode?]
    exact (List.toByteArray_inj.1 hbytes).symm
  · rintro rfl
    exact ofUtf8?_flatMap text

/-! ### Written texts are decoded -/

theorem WritesBytes.decodeBytes_append (h : WritesBytes bytes coded) (cs : List Char) :
    decodeBytes (coded ++ cs) = bytes ++ decodeBytes cs ∧
      isWellFormed (coded ++ cs) = isWellFormed cs := by
  induction h with
  | nil => exact ⟨rfl, rfl⟩
  | cons hb _ ih =>
    exact ⟨(decodeBytes_percent hb _).trans (congrArg _ ih.1),
      (isWellFormed_percent hb _).trans ih.2⟩

theorem Writes.decodeBytes_eq (h : Writes text cs) :
    decodeBytes cs = text.flatMap String.utf8EncodeChar ∧ isWellFormed cs = true := by
  induction h with
  | nil => exact ⟨rfl, rfl⟩
  | plain hc _ ih =>
    rw [decodeBytes_cons_of_ne hc, isWellFormed_cons_of_ne hc, List.flatMap_cons, ih.1]
    exact ⟨rfl, ih.2⟩
  | coded hc _ ih =>
    obtain ⟨hbytes, hformed⟩ := hc.decodeBytes_append _
    rw [hbytes, hformed, List.flatMap_cons, ih.1]
    exact ⟨rfl, ih.2⟩

theorem byte?_hexDigit (b : UInt8) :
    byte? (hexDigit (b.toNat / 16)) (hexDigit (b.toNat % 16)) = some b := by
  have hdigit : ∀ n < 16, Number.digitValue? (hexDigit n) = some n := by decide
  have hlt := b.toNat_lt
  have hbyte : UInt8.ofNat (16 * (b.toNat / 16) + b.toNat % 16) = b := by
    rw [Nat.div_add_mod, UInt8.ofNat_toNat]
  rw [byte?, hdigit _ (by omega), hdigit _ (by omega)]
  exact congrArg some hbyte

theorem writesBytes_flatMap (bytes : List UInt8) :
    WritesBytes bytes (bytes.flatMap encodeByte) := by
  induction bytes with
  | nil => exact .nil
  | cons b bytes ih => exact .cons (byte?_hexDigit b) ih

/-- A text is written by encoding some of its characters, the percent signs among them. -/
theorem writes_encode_of_forall {isEncoded : Char → Bool}
    (h : ∀ c ∈ cs, isEncoded c = false → c ≠ '%') : Writes cs (encode isEncoded cs) := by
  induction cs with
  | nil => exact .nil
  | cons c cs ih =>
    obtain ⟨hc, hcs⟩ := List.forall_mem_cons.1 h
    rw [encode, List.flatMap_cons]
    split
    · exact .coded (writesBytes_flatMap _) (ih hcs)
    · rename_i hkept
      exact .plain (hc (Bool.eq_false_of_not_eq_true hkept)) (ih hcs)

/-- A text without percent signs is written by encoding any of its characters. -/
theorem writes_encode {isEncoded : Char → Bool} (h : '%' ∉ cs) :
    Writes cs (encode isEncoded cs) :=
  writes_encode_of_forall fun _ hc _ heq ↦ h (heq ▸ hc)

/-! ### Only written texts are decoded -/

/-- The first character that bytes encode is told by them. -/
theorem utf8EncodeChar_append_inj {c d : Char} {xs ys : List UInt8}
    (h : String.utf8EncodeChar c ++ xs = String.utf8EncodeChar d ++ ys) : c = d ∧ xs = ys := by
  have hchar : some c = some d := by
    rw [← @ByteArray.utf8DecodeChar?_utf8EncodeChar_append xs.toByteArray c,
      ← @ByteArray.utf8DecodeChar?_utf8EncodeChar_append ys.toByteArray d,
      ← List.toByteArray_append, ← List.toByteArray_append, h]
  obtain rfl := Option.some.inj hchar
  exact ⟨rfl, List.append_cancel_left h⟩

/-- A byte that goes on with a character. -/
def IsContinuation (b : UInt8) : Prop := ¬ b.IsUTF8FirstByte

theorem exists_utf8EncodeChar_eq_cons (c : Char) : ∃ b rest,
    String.utf8EncodeChar c = b :: rest ∧ b.IsUTF8FirstByte ∧ ∀ x ∈ rest, IsContinuation x := by
  obtain ⟨b, rest, heq⟩ := List.exists_cons_of_ne_nil (@String.utf8EncodeChar_ne_nil c)
  have hplace : ∀ i (hi : i < (b :: rest).length),
      (b :: rest)[i].IsUTF8FirstByte ↔ i = 0 := by
    rw [← heq]
    exact fun i hi ↦ UInt8.isUTF8FirstByte_getElem_utf8EncodeChar
  refine ⟨b, rest, heq, (hplace 0 (Nat.succ_pos _)).2 rfl, fun x hx ↦ ?_⟩
  obtain ⟨i, hi, rfl⟩ := List.mem_iff_getElem.1 hx
  exact fun hfirst ↦ Nat.succ_ne_zero i ((hplace (i + 1) (Nat.succ_lt_succ hi)).1 hfirst)

/-- A text is changed by encoding one of its characters, which leaves the bytes of it. -/
theorem encode_eq_or_exists (isEncoded : Char → Bool) (cs : List Char) :
    encode isEncoded cs = cs ∨ ∃ c b rest, isEncoded c = true ∧
      String.utf8EncodeChar c = b :: rest ∧ encodeByte b <:+: encode isEncoded cs := by
  by_cases h : ∀ c ∈ cs, isEncoded c = false
  · exact .inl (encode_of_forall h)
  · obtain ⟨c, hc, hencoded⟩ : ∃ c ∈ cs, isEncoded c = true := by simpa using h
    obtain ⟨b, rest, hbytes, -, -⟩ := exists_utf8EncodeChar_eq_cons c
    obtain ⟨front, back, rfl⟩ := List.append_of_mem hc
    refine .inr ⟨c, b, rest, hencoded, hbytes, encode isEncoded front,
      rest.flatMap encodeByte ++ encode isEncoded back, ?_⟩
    simp [encode, encodeChar, hencoded, hbytes]

/-- Bytes that go on with a character are written as bytes. -/
theorem exists_writesBytes (hbytes : ∀ b ∈ bytes, IsContinuation b) {more : List UInt8}
    (hformed : isWellFormed cs = true) (h : decodeBytes cs = bytes ++ more) :
    ∃ coded rest, cs = coded ++ rest ∧ WritesBytes bytes coded ∧ isWellFormed rest = true ∧
      decodeBytes rest = more := by
  induction bytes generalizing cs with
  | nil => exact ⟨[], cs, rfl, .nil, hformed, h⟩
  | cons b bytes ih =>
    obtain ⟨hb, htail⟩ := List.forall_mem_cons.1 hbytes
    match cs with
    | [] => cases h
    | c :: cs =>
      by_cases hc : c = '%'
      · subst hc
        obtain ⟨high, low, rest, x, rfl, hx, hrest⟩ := exists_byte_of_isWellFormed hformed
        rw [decodeBytes_percent hx] at h
        obtain ⟨rfl, hbehind⟩ := List.cons_eq_cons.1 h
        obtain ⟨coded, behind, rfl, hcoded, hformed', hmore⟩ := ih htail hrest hbehind
        exact ⟨'%' :: high :: low :: coded, behind, rfl, .cons hx hcoded, hformed', hmore⟩
      · obtain ⟨first, tail, hfirst, hlead, -⟩ := exists_utf8EncodeChar_eq_cons c
        rw [decodeBytes_cons_of_ne hc, hfirst] at h
        obtain ⟨rfl, -⟩ := List.cons_eq_cons.1 h
        exact absurd hlead hb

theorem writes_of_decodeBytes (hformed : isWellFormed cs = true)
    (h : decodeBytes cs = text.flatMap String.utf8EncodeChar) : Writes text cs := by
  induction text generalizing cs with
  | nil =>
    rw [decodeBytes_eq_nil hformed h]
    exact .nil
  | cons c text ih =>
    rw [List.flatMap_cons] at h
    match cs with
    | [] => exact absurd (List.append_eq_nil_iff.1 h.symm).1 String.utf8EncodeChar_ne_nil
    | d :: cs =>
      by_cases hd : d = '%'
      · subst hd
        obtain ⟨first, tail, hfirst, -, htail⟩ := exists_utf8EncodeChar_eq_cons c
        obtain ⟨high, low, rest, x, rfl, hx, hrest⟩ := exists_byte_of_isWellFormed hformed
        rw [decodeBytes_percent hx, hfirst, List.cons_append] at h
        obtain ⟨rfl, hbehind⟩ := List.cons_eq_cons.1 h
        obtain ⟨coded, behind, rfl, hcoded, hformed', hmore⟩ :=
          exists_writesBytes htail hrest hbehind
        have hc : WritesBytes (String.utf8EncodeChar c) ('%' :: high :: low :: coded) := by
          rw [hfirst]
          exact .cons hx hcoded
        exact .coded hc (ih hformed' hmore)
      · rw [decodeBytes_cons_of_ne hd] at h
        rw [isWellFormed_cons_of_ne hd] at hformed
        obtain ⟨rfl, hbehind⟩ := utf8EncodeChar_append_inj h
        exact .plain hd (ih hformed hbehind)

/-- **What is decoded is what was written.** -/
theorem decode?_eq_some_iff : decode? cs = some text ↔ Writes text cs := by
  rw [decode?]
  constructor
  · intro h
    split at h
    · exact writes_of_decodeBytes ‹_› (ofUtf8?_eq_some_iff.1 h)
    · cases h
  · intro h
    obtain ⟨hbytes, hformed⟩ := h.decodeBytes_eq
    rw [if_pos hformed, ofUtf8?_eq_some_iff, hbytes]

end IndexSnapshot.Percent
