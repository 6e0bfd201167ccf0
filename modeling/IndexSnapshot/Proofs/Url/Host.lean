import IndexSnapshot.Proofs.Domain.Ascii
import IndexSnapshot.Proofs.Url.Address
import IndexSnapshot.Proofs.Url.Characters
import IndexSnapshot.Proofs.Url.Percent

/-!
# Written hosts

Special schemes give hosts a structure, and other schemes keep them as they are. In both cases what
they are written with cannot be taken for anything else in a locator. A written address reads back
as the address, and a written domain as the domain in small letters; where two hosts read as each
other they are the same (`eq_of_parse?_text`). A host that has been read is read back from its
written form, if the name of a domain is its own ASCII form (`parse?_text`).
-/

namespace IndexSnapshot.Host

open Url (isOwn isOwn_iff isPlain_iff isOwn_of_isAlphanum space_lt_iff)

variable {host : Host} {c : Char} {text : List Char} {special : Bool}

/-- A host as locators of web pages name it. -/
inductive IsWeb : Host → Prop where
  | domain {name : List Char} (hne : name ≠ [])
      (hname : ∀ c ∈ name, isForbiddenInDomain c = false)
      (hascii : Domain.isAsciiText name = true) : IsWeb (.domain name)
  | ipv4 {address : ℕ} (h : address < 2 ^ 32) : IsWeb (.ipv4 address)
  | ipv6 {pieces : List ℕ} (h : Ipv6.IsAddress pieces) : IsWeb (.ipv6 pieces)

theorem isWeb_of_ofDomain? (h : ofDomain? text = some host) : IsWeb host := by
  obtain ⟨decoded, -, h⟩ := Option.bind_eq_some_iff.1 h
  obtain ⟨name, htoAscii, h⟩ := Option.bind_eq_some_iff.1 h
  split at h
  · cases h
  · rename_i hname
    rw [Bool.not_eq_true, Bool.or_eq_false_iff] at hname
    split at h
    · obtain ⟨address, haddress, rfl⟩ := Option.map_eq_some_iff.1 h
      exact .ipv4 (Ipv4.lt_of_parse? haddress)
    · cases h
      exact .domain (by simpa using hname.1) (by simpa using hname.2)
        (Domain.isAsciiText_of_toAscii? htoAscii)

/-- What a host is read as: an address between brackets, or else a host with structure under a
special scheme, and the text itself under another one. -/
theorem parse?_cases (h : parse? special text = some host) :
    (∃ pieces, Ipv6.IsAddress pieces ∧ host = .ipv6 pieces) ∨
      special = true ∧ ofDomain? text = some host ∨
      special = false ∧ text.any isForbidden = false ∧
        host = .unstructured (Percent.encode Percent.isControl text) := by
  unfold parse? at h
  split at h
  · split at h
    · obtain ⟨pieces, hpieces, rfl⟩ := Option.map_eq_some_iff.1 h
      exact .inl ⟨pieces, Ipv6.isAddress_of_parse? hpieces, rfl⟩
    · cases h
  · split at h
    · rename_i hspecial
      exact .inr (.inl ⟨hspecial, h⟩)
    · rename_i hspecial
      split at h
      · cases h
      · rename_i hallowed
        exact .inr (.inr ⟨by simpa using hspecial, by simpa using hallowed,
          (Option.some.inj h).symm⟩)

/-- Under a special scheme hosts have structure. -/
theorem isWeb_of_parse? (h : parse? true text = some host) : IsWeb host := by
  rcases parse?_cases h with ⟨pieces, hpieces, rfl⟩ | ⟨-, h⟩ | ⟨hspecial, -⟩
  · exact .ipv6 hpieces
  · exact isWeb_of_ofDomain? h
  · cases hspecial

/-- A host as locators name it: outside the web it may be any text that has no part in the form of a
locator. -/
inductive IsWritten : Host → Prop where
  | web {host : Host} (h : IsWeb host) : IsWritten host
  | unstructured {text : List Char} (hne : text ≠ [])
      (htext : ∀ c ∈ text, isForbidden c = false ∧ Percent.isControl c = false) :
      IsWritten (.unstructured text)

/-- A text that is encoded has the same characters, and percent signs and digits. -/
theorem of_mem_encode (htext : text.any isForbidden = false)
    (h : c ∈ Percent.encode Percent.isControl text) :
    isForbidden c = false ∧ Percent.isControl c = false := by
  rcases Percent.of_mem_encode h with rfl | hc | ⟨hc, hcontrol⟩
  · decide
  · rw [Text.isAlphanum_iff] at hc
    simp only [isForbidden, Percent.isControl, Bool.or_eq_false_iff, decide_eq_false_iff_not,
      List.mem_cons, List.not_mem_nil, not_or, ← Char.toNat_inj, Char.lt_def,
      UInt32.lt_iff_toNat_lt, Char.toNat_val, Char.reduceToNat, not_false_eq_true, and_true]
    omega
  · exact ⟨by simpa using List.any_eq_false.1 htext c hc, hcontrol⟩

theorem isWritten_of_parse? (hne : text ≠ []) (h : parse? special text = some host) :
    IsWritten host := by
  rcases parse?_cases h with ⟨pieces, hpieces, rfl⟩ | ⟨-, h⟩ | ⟨-, hallowed, rfl⟩
  · exact .web (.ipv6 hpieces)
  · exact .web (isWeb_of_ofDomain? h)
  · exact .unstructured (mt Percent.encode_eq_nil_iff.1 hne) fun c ↦ of_mem_encode hallowed

/-! ### Characters -/

theorem isForbiddenInDomain_of_isAlphanum (h : c.isAlphanum = true) :
    isForbiddenInDomain c = false := by
  rw [Text.isAlphanum_iff] at h
  simp only [isForbiddenInDomain, isForbidden, Bool.or_eq_false_iff,
    decide_eq_false_iff_not, List.mem_cons, List.not_mem_nil, not_or, ← Char.toNat_inj,
    Char.le_def, UInt32.le_iff_toNat_le, Char.toNat_val, Char.reduceToNat, not_false_eq_true,
    and_true]
  omega

theorem isForbiddenInDomain_of_mem_ipv4Text {address : ℕ} (h : c ∈ Ipv4.text address) :
    isForbiddenInDomain c = false := by
  rcases Ipv4.of_mem_text h with rfl | h
  · decide
  · exact isForbiddenInDomain_of_isAlphanum (by rw [Char.isAlphanum, h, Bool.or_true])

theorem isForbidden_of_not_isForbiddenInDomain (h : isForbiddenInDomain c = false) :
    isForbidden c = false ∧ ' ' < c := by
  simp only [isForbiddenInDomain, isForbidden, Bool.or_eq_false_iff, decide_eq_false_iff_not,
    List.mem_cons, List.not_mem_nil, not_or, ← Char.toNat_inj, Char.le_def,
    UInt32.le_iff_toNat_le, Char.toNat_val, Char.reduceToNat, space_lt_iff, not_false_eq_true,
    and_true] at h ⊢
  omega

theorem lt_of_not_isForbidden (h : isForbidden c = false) (hcontrol : Percent.isControl c = false) :
    ' ' < c := by
  simp only [isForbidden, Percent.isControl, Bool.or_eq_false_iff, decide_eq_false_iff_not,
    List.mem_cons, List.not_mem_nil, not_or, ← Char.toNat_inj, Char.lt_def,
    UInt32.lt_iff_toNat_lt, Char.toNat_val, Char.reduceToNat] at h hcontrol ⊢
  omega

/-- What a host is written with. -/
theorem of_mem_text (hhost : IsWritten host) (h : c ∈ host.text) :
    isForbidden c = false ∧ ' ' < c ∨ c = ':' ∨ c = '[' ∨ c = ']' := by
  cases hhost with
  | unstructured _ htext =>
    exact .inl ⟨(htext c h).1, lt_of_not_isForbidden (htext c h).1 (htext c h).2⟩
  | web hweb =>
    cases hweb with
    | domain _ hname => exact .inl (isForbidden_of_not_isForbiddenInDomain (hname c h))
    | ipv4 _ =>
      exact .inl (isForbidden_of_not_isForbiddenInDomain (isForbiddenInDomain_of_mem_ipv4Text h))
    | ipv6 _ =>
      simp only [Host.text, List.cons_append, List.mem_cons, List.mem_append, List.not_mem_nil,
        or_false] at h
      rcases h with rfl | h | rfl
      · exact .inr (.inr (.inl rfl))
      · rcases Ipv6.of_mem_text h with rfl | h
        · exact .inr (.inl rfl)
        · exact .inl (isForbidden_of_not_isForbiddenInDomain (isForbiddenInDomain_of_isAlphanum h))
      · exact .inr (.inr (.inr rfl))

theorem isOwn_of_not_isForbidden (h : isForbidden c = false) (hblank : ' ' < c) :
    isOwn c = true := by
  simp only [isForbidden, decide_eq_false_iff_not, List.mem_cons, List.not_mem_nil, not_or,
    ← Char.toNat_inj, Char.reduceToNat, space_lt_iff] at h hblank
  rw [isOwn_iff, isPlain_iff]
  omega

theorem isOwn_of_mem_text (hhost : IsWritten host) (h : c ∈ host.text) : isOwn c = true := by
  rcases of_mem_text hhost h with ⟨hallowed, hblank⟩ | rfl | rfl | rfl
  · exact isOwn_of_not_isForbidden hallowed hblank
  · rfl
  · rfl
  · rfl

theorem text_ne_nil (h : IsWritten host) : host.text ≠ [] := by
  cases h with
  | unstructured hne _ => exact hne
  | web hweb =>
    cases hweb with
    | domain hne _ => exact hne
    | ipv4 _ => simp [Host.text, Ipv4.text]
    | ipv6 _ => exact List.cons_ne_nil _ _

/-! ### Written hosts -/

theorem parse?_ipv6Text {pieces : List ℕ} (h : Ipv6.IsAddress pieces) :
    parse? special (Host.text (.ipv6 pieces)) = some (.ipv6 pieces) := by
  rw [Host.text, List.cons_append, parse?, if_pos List.getLast?_concat, List.dropLast_concat,
    Ipv6.parse?_text h]
  rfl

theorem parse?_of_ne_bracket {first : Char} (hfirst : first ≠ '[') (rest : List Char) :
    parse? true (first :: rest) = ofDomain? (first :: rest) := by
  rw [parse?]
  · rfl
  · exact fun tail heq ↦ hfirst (List.head_eq_of_cons_eq heq)

/-- No percent sign is left in a domain, so that what it denotes is a matter of its ASCII form. -/
theorem ofDomain?_eq {name : List Char} (hname : ∀ c ∈ name, isForbiddenInDomain c = false) :
    ofDomain? name = (Domain.toAscii? name).bind fun name ↦
      if name.isEmpty || name.any isForbiddenInDomain then none
      else if Ipv4.isNumeric name then (Ipv4.parse? name).map .ipv4
      else some (.domain name) := by
  have hpercent : '%' ∉ name := fun h ↦ absurd (hname _ h) (by decide)
  rw [ofDomain?, Percent.decodeBytes_of_not_mem hpercent, Percent.ofUtf8?_flatMap]
  rfl

theorem parse?_ipv4Text {address : ℕ} (h : address < 2 ^ 32) :
    parse? true (Host.text (.ipv4 address)) = some (.ipv4 address) := by
  -- digits and points stay as they are at every step before the numbers are read
  have hchar : ∀ c ∈ Ipv4.text address, 46 ≤ c.toNat ∧ c.toNat ≤ 57 := by
    intro c hc
    rcases Ipv4.of_mem_text hc with rfl | hdigit
    · decide
    · rw [Text.isDigit_iff] at hdigit
      omega
  have hascii : Domain.isAsciiText (Ipv4.text address) = true :=
    Domain.isAsciiText_iff.2 fun c hc ↦ decide_eq_true (by have := hchar c hc; omega)
  have hlower : Text.lower (Ipv4.text address) = Ipv4.text address :=
    Text.lower_of_forall fun c hc ↦ by have := hchar c hc; omega
  have hforbidden : ∀ c ∈ Ipv4.text address, isForbiddenInDomain c = false := fun c ↦
    isForbiddenInDomain_of_mem_ipv4Text
  have hmark : 'x' ∉ Text.lower (Ipv4.text address) := by
    rw [hlower]
    exact fun hx ↦ absurd (hchar 'x' hx) (by decide)
  have hany : (Ipv4.text address).any isForbiddenInDomain = false :=
    List.any_eq_false.2 fun c hc ↦ by rw [hforbidden c hc]; decide
  have hne : Ipv4.text address ≠ [] := text_ne_nil (.web (.ipv4 h))
  have hempty : (Ipv4.text address).isEmpty = false := by simpa using hne
  obtain ⟨first, rest, htext⟩ := List.exists_cons_of_ne_nil hne
  have hfirst : first ≠ '[' := by
    rintro rfl
    exact absurd (hchar _ (htext ▸ List.mem_cons_self)) (by decide)
  rw [Host.text, htext, parse?_of_ne_bracket hfirst, ← htext, ofDomain?_eq hforbidden,
    Domain.toAscii?_of_not_mem hascii (by decide) hmark, hlower, Option.bind_some, hempty, hany,
    Bool.or_self, if_neg Bool.false_ne_true, if_pos (Ipv4.isNumeric_text address),
    Ipv4.parse?_text h]
  rfl

/-- **A domain reads as the domain in small letters**, if it reads as a domain at all. -/
theorem eq_lower_of_parse?_domain {name name' : List Char} (h : IsWeb (.domain name))
    (hparse : parse? true name = some (.domain name')) : name' = Text.lower name := by
  cases h with
  | domain hne hname hascii =>
    obtain ⟨first, rest, rfl⟩ := List.exists_cons_of_ne_nil hne
    have hfirst : first ≠ '[' := by
      rintro rfl
      exact absurd (hname _ List.mem_cons_self) (by decide)
    rw [parse?_of_ne_bracket hfirst, ofDomain?_eq hname] at hparse
    obtain ⟨out, hout, hparse⟩ := Option.bind_eq_some_iff.1 hparse
    have hlower := Domain.eq_lower_of_toAscii? hascii hout
    split at hparse
    · cases hparse
    · split at hparse
      · obtain ⟨address, -, hsame⟩ := Option.map_eq_some_iff.1 hparse
        cases hsame
      · cases hparse
        exact hlower

/-- **Two hosts that read as each other are the same.** -/
theorem eq_of_parse?_text {host' : Host} (h : parse? true host.text = some host')
    (h' : parse? true host'.text = some host) : host = host' := by
  have hweb := isWeb_of_parse? h'
  have hweb' := isWeb_of_parse? h
  cases hweb with
  | ipv4 haddress =>
    rw [parse?_ipv4Text haddress] at h
    exact Option.some.inj h
  | ipv6 hpieces =>
    rw [parse?_ipv6Text hpieces] at h
    exact Option.some.inj h
  | @domain name hne hname hascii =>
    cases hweb' with
    | ipv4 haddress =>
      rw [parse?_ipv4Text haddress] at h'
      cases h'
    | ipv6 hpieces =>
      rw [parse?_ipv6Text hpieces] at h'
      cases h'
    | @domain name' hne' hname' hascii' =>
      have hlower := eq_lower_of_parse?_domain (.domain hne hname hascii) h
      have hlower' := eq_lower_of_parse?_domain (.domain hne' hname' hascii') h'
      have hsmall : Text.lower name' = name' := by rw [hlower, Text.lower_lower]
      rw [hlower', hsmall]

/-! ### Hosts are read back -/

theorem isNumeric_of_ofDomain? {name : List Char} (h : ofDomain? text = some (.domain name)) :
    Ipv4.isNumeric name = false := by
  obtain ⟨decoded, -, h⟩ := Option.bind_eq_some_iff.1 h
  obtain ⟨out, -, h⟩ := Option.bind_eq_some_iff.1 h
  split at h
  · cases h
  · split at h
    · obtain ⟨address, -, hsame⟩ := Option.map_eq_some_iff.1 h
      cases hsame
    · rename_i hnumeric
      cases h
      simpa using hnumeric

theorem parse?_domain {name : List Char} (hne : name ≠ [])
    (hname : ∀ c ∈ name, isForbiddenInDomain c = false) (hnumeric : Ipv4.isNumeric name = false)
    (hascii : Domain.toAscii? name = some name) : parse? true name = some (.domain name) := by
  have hempty : name.isEmpty = false := by simpa using hne
  have hany : name.any isForbiddenInDomain = false :=
    List.any_eq_false.2 fun c hc ↦ by rw [hname c hc]; decide
  obtain ⟨first, rest, hfirst⟩ := List.exists_cons_of_ne_nil hne
  have hbracket : first ≠ '[' := by
    rintro rfl
    exact absurd (hname _ (hfirst ▸ List.mem_cons_self)) (by decide)
  rw [hfirst, parse?_of_ne_bracket hbracket, ← hfirst, ofDomain?_eq hname, hascii, Option.bind_some,
    hempty, hany, Bool.or_self, if_neg Bool.false_ne_true, hnumeric, if_neg Bool.false_ne_true]

theorem parse?_unstructured
    (htext : ∀ c ∈ text, isForbidden c = false ∧ Percent.isControl c = false) :
    parse? false text = some (.unstructured text) := by
  have hany : text.any isForbidden = false :=
    List.any_eq_false.2 fun c hc ↦ by rw [(htext c hc).1]; decide
  unfold parse?
  split
  · exact absurd (htext _ List.mem_cons_self).1 (by decide)
  · rw [if_neg Bool.false_ne_true, hany, if_neg Bool.false_ne_true,
      Percent.encode_of_forall fun c hc ↦ (htext c hc).2]

/-- If the host is a domain, its name is its own ASCII form. -/
def IsStable (host : Host) : Prop :=
  ∀ name, host = .domain name → Domain.toAscii? name = some name

/-- **A host that has been read is read back** if it is stable. -/
theorem parse?_text (h : parse? special text = some host) (hstable : host.IsStable) :
    parse? special host.text = some host := by
  rcases parse?_cases h with ⟨pieces, hpieces, rfl⟩ | ⟨rfl, hdomain⟩ | ⟨rfl, hallowed, rfl⟩
  · exact parse?_ipv6Text hpieces
  · cases isWeb_of_ofDomain? hdomain with
    | ipv6 hpieces => exact parse?_ipv6Text hpieces
    | ipv4 haddress => exact parse?_ipv4Text haddress
    | domain hne hname _ =>
      exact parse?_domain hne hname (isNumeric_of_ofDomain? hdomain) (hstable _ rfl)
  · exact parse?_unstructured fun c ↦ of_mem_encode hallowed

end IndexSnapshot.Host
