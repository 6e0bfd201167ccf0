import IndexSnapshot.Proofs.Text.Letters
import IndexSnapshot.Url.Percent
import Mathlib.Tactic.IntervalCases

/-!
# Laws of percent encoding

An encoded text is made of percent signs, digits and what is kept, so that nothing in it is encoded
a second time. A text without percent signs is decoded to itself.
-/

namespace IndexSnapshot.Percent

variable {isEncoded : Char → Bool} {cs : List Char}

/-! ### Encoding -/

theorem isAlphanum_hexDigit {n : ℕ} (h : n < 16) : (hexDigit n).isAlphanum = true := by
  interval_cases n <;> rfl

/-- What a percent-encoded text is made of. -/
theorem of_mem_encode {c : Char} (h : c ∈ encode isEncoded cs) :
    c = '%' ∨ c.isAlphanum = true ∨ c ∈ cs ∧ isEncoded c = false := by
  obtain ⟨d, hd, hc⟩ := List.mem_flatMap.1 h
  split at hc
  · obtain ⟨byte, -, hc⟩ := List.mem_flatMap.1 hc
    have hlt := byte.toNat_lt
    simp only [encodeByte, List.mem_cons, List.not_mem_nil, or_false] at hc
    rcases hc with rfl | rfl | rfl
    · exact .inl rfl
    · exact .inr (.inl (isAlphanum_hexDigit (by omega)))
    · exact .inr (.inl (isAlphanum_hexDigit (by omega)))
  · rename_i hkept
    rw [List.mem_singleton.1 hc]
    exact .inr (.inr ⟨hd, by simpa using hkept⟩)

theorem encode_of_forall (h : ∀ c ∈ cs, isEncoded c = false) : encode isEncoded cs = cs := by
  induction cs with
  | nil => rfl
  | cons c cs ih =>
    have hcs : encode isEncoded cs = cs := ih fun d hd ↦ h d (List.mem_cons_of_mem c hd)
    rw [encode] at hcs
    rw [encode, List.flatMap_cons, hcs, if_neg (by simp [h c List.mem_cons_self])]
    rfl

theorem encode_eq_nil_iff : encode isEncoded cs = [] ↔ cs = [] := by
  have hbytes : ∀ c, encodeChar c ≠ [] := fun c hnil ↦ by
    obtain ⟨b, rest, hcons⟩ := List.exists_cons_of_ne_nil (@String.utf8EncodeChar_ne_nil c)
    rw [encodeChar, hcons] at hnil
    cases hnil
  constructor
  · intro hnil
    by_contra hne
    obtain ⟨c, rest, rfl⟩ := List.exists_cons_of_ne_nil hne
    rw [encode, List.flatMap_cons] at hnil
    have hfirst := (List.append_eq_nil_iff.1 hnil).1
    split at hfirst
    · exact hbytes c hfirst
    · cases hfirst
  · rintro rfl
    rfl

/-- Nothing that is encoded is left. -/
theorem eq_false_of_mem_encode (hpercent : isEncoded '%' = false)
    (halphanum : ∀ c, c.isAlphanum = true → isEncoded c = false) {c : Char}
    (h : c ∈ encode isEncoded cs) : isEncoded c = false := by
  rcases of_mem_encode h with rfl | h | ⟨-, h⟩
  · exact hpercent
  · exact halphanum c h
  · exact h

theorem inUserinfo_of_isAlphanum {c : Char} (h : c.isAlphanum = true) : inUserinfo c = false := by
  rw [Text.isAlphanum_iff] at h
  simp only [inUserinfo, inPath, inQuery, isControl, Bool.or_eq_false_iff,
    decide_eq_false_iff_not, ← Char.toNat_inj, Char.lt_def, UInt32.lt_iff_toNat_lt,
    Char.toNat_val, Char.reduceToNat]
  omega

theorem inUserinfo_of_mem_encode {c : Char} (h : c ∈ encode inUserinfo cs) :
    inUserinfo c = false :=
  eq_false_of_mem_encode (by decide) (fun _ ↦ inUserinfo_of_isAlphanum) h

theorem inPath_of_mem_encode {c : Char} (h : c ∈ encode inPath cs) : inPath c = false := by
  refine eq_false_of_mem_encode (by decide) (fun c hc ↦ ?_) h
  rw [Text.isAlphanum_iff] at hc
  simp only [inPath, inQuery, isControl, Bool.or_eq_false_iff, decide_eq_false_iff_not,
    ← Char.toNat_inj, Char.lt_def, UInt32.lt_iff_toNat_lt, Char.toNat_val, Char.reduceToNat]
  omega

/-! ### Decoding -/

theorem decodeBytes_of_not_mem (h : '%' ∉ cs) :
    decodeBytes cs = cs.flatMap String.utf8EncodeChar := by
  induction cs with
  | nil => rfl
  | cons c cs ih =>
    rw [List.mem_cons, not_or] at h
    rw [decodeBytes, ih h.2, List.flatMap_cons]
    · exact fun _ _ _ heq _ ↦ h.1 heq.symm

theorem ofUtf8?_flatMap (cs : List Char) :
    ofUtf8? (cs.flatMap String.utf8EncodeChar) = some cs := by
  have hdecode : (cs.flatMap String.utf8EncodeChar).toByteArray.utf8Decode? = some cs.toArray :=
    List.utf8Decode?_utf8Encode
  rw [ofUtf8?, hdecode]
  rfl

end IndexSnapshot.Percent
