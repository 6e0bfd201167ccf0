import IndexSnapshot.Proofs.Url.Host
import IndexSnapshot.Proofs.Url.Reading

/-!
# Written owners

The owner of a path is read from what stands between two slashes and the next one, and it is written
there: user information in percent encoding, a host, and a port. What is written has no slash in it,
so that it is taken for the owner again, and it is read as the same owner but for its host, of which
the reader knows (`authority?_chars`). It is empty only when the scheme leaves the host without
structure.
-/

namespace IndexSnapshot.Url

variable {scheme cs : List Char} {a : Authority}

/-- An owner as it is read, with a host. -/
structure IsOwner (scheme : List Char) (a : Authority) : Prop where
  username : ∀ c ∈ a.username, Percent.inUserinfo c = false
  password : ∀ c ∈ a.password, Percent.inUserinfo c = false
  host : ∃ text host, text ≠ [] ∧ Host.parse? (isSpecialScheme scheme) text = some host ∧
    a.host = some host
  port : ∃ digits, port? scheme digits = some a.port

theorem IsOwner.exists_host (h : IsOwner scheme a) :
    ∃ host, host.IsWritten ∧ a.host = some host := by
  obtain ⟨text, host, hne, hparse, hhost⟩ := h.host
  exact ⟨host, Host.isWritten_of_parse? hne hparse, hhost⟩

/-- What is read as an owner has a host, unless it is empty and the scheme allows that. -/
theorem isOwner_or_of_authority? (h : authority? scheme cs = some a) :
    IsOwner scheme a ∨ isSpecialScheme scheme = false ∧ a = .ofHost .empty := by
  simp only [authority?] at h
  split at h
  · split at h
    · cases h
    · rename_i hnothing
      simp only [Bool.or_eq_true, not_or, Bool.not_eq_true, Option.isSome_eq_false_iff,
        Option.isNone_iff_eq_none] at hnothing
      obtain ⟨⟨hspecial, huser⟩, hport⟩ := hnothing
      rw [huser, hport] at h
      exact .inr ⟨hspecial, (Option.some.inj h).symm⟩
  · rename_i hne
    obtain ⟨host, hhost, h⟩ := Option.bind_eq_some_iff.1 h
    obtain ⟨port, hport, h⟩ := Option.bind_eq_some_iff.1 h
    cases h
    exact .inl ⟨fun c ↦ Percent.inUserinfo_of_mem_encode, fun c ↦ Percent.inUserinfo_of_mem_encode,
      ⟨_, host, by simpa using hne, hhost, rfl⟩, ⟨_, hport⟩⟩

theorem isOwner_of_authority? (hspecial : isSpecialScheme scheme = true)
    (h : authority? scheme cs = some a) : IsOwner scheme a :=
  (isOwner_or_of_authority? h).resolve_right fun hempty ↦ by
    rw [hspecial] at hempty
    cases hempty.1

/-! ### Characters -/

theorem IsOwner.chars_ne_nil (h : IsOwner scheme a) : a.chars ≠ [] := by
  obtain ⟨host, hwritten, hhost⟩ := h.exists_host
  simp [Authority.chars, page, hhost, Host.text_ne_nil hwritten]

theorem mem_userinfoChars {url : Url} {c : Char} (hc : c ∈ url.userinfoChars) :
    c = ':' ∨ c = '@' ∨ c ∈ url.username ∨ c ∈ url.password := by
  unfold userinfoChars at hc
  split_ifs at hc <;> simp at hc <;> tauto

/-- What an owner is written with. -/
theorem IsOwner.isOwn_of_mem (h : IsOwner scheme a) {c : Char} (hc : c ∈ a.chars) :
    isOwn c = true := by
  obtain ⟨host, hwritten, hhost⟩ := h.exists_host
  simp only [Authority.chars, page, hhost, Option.elim_some, List.mem_append] at hc
  rcases hc with (hc | hc) | hc
  · rcases mem_userinfoChars hc with rfl | rfl | hc | hc
    · rfl
    · rfl
    · exact isOwn_of_not_inUserinfo (h.username c hc)
    · exact isOwn_of_not_inUserinfo (h.password c hc)
  · exact Host.isOwn_of_mem_text hwritten hc
  · unfold portChars at hc
    split at hc
    · rcases List.mem_cons.1 hc with rfl | hc
      · rfl
      · exact isOwn_of_isAlphanum (Number.isAlphanum_of_mem_toDigits (by decide) (by decide) hc)
    · exact absurd hc List.not_mem_nil

/-- A text that is taken for an owner. -/
structure IsOwnerText (owner : List Char) : Prop where
  ne_nil : owner ≠ []
  isOwn_of_mem : ∀ c ∈ owner, isOwn c = true

theorem IsOwner.isOwnerText (h : IsOwner scheme a) : IsOwnerText a.chars :=
  ⟨h.chars_ne_nil, fun _ ↦ h.isOwn_of_mem⟩

/-! ### Ports -/

/-- The digits of a port, none when there is no port. -/
def portDigits (port : Option ℕ) : List Char := port.elim [] (Nat.toDigits 10)

/-- **A written port reads as the port.** -/
theorem port?_portDigits {port : Option ℕ} {digits : List Char}
    (h : port? scheme digits = some port) : port? scheme (portDigits port) = some port := by
  unfold port? at h
  split at h
  · cases h
    rfl
  · obtain ⟨n, -, h⟩ := Option.bind_eq_some_iff.1 h
    split at h
    · cases h
    · rename_i hle
      split at h
      · cases h
        rfl
      · rename_i himplied
        cases h
        have hvalue := Number.valueIn?_toDigits (b := 10) (by decide) (by decide) n
        have hne : Nat.toDigits 10 n ≠ [] := Nat.toDigits_ne_nil
        simp [port?, portDigits, hvalue, hne, hle, himplied]

/-- The search for the colon passes what has none of the marks that it looks for. -/
theorem splitPort_go_append {inside : Bool} {before cs rest : List Char}
    (h : ∀ c ∈ cs, c ≠ '[' ∧ c ≠ ']' ∧ (c = ':' → inside = true)) :
    splitPort.go inside before (cs ++ rest) = splitPort.go inside (cs.reverse ++ before) rest := by
  induction cs generalizing before with
  | nil => rfl
  | cons c cs ih =>
    obtain ⟨hopen, hclose, hcolon⟩ := h c List.mem_cons_self
    have hstay : ¬ (decide (c = ':') && !inside) = true := by
      by_cases hc : c = ':'
      · simp [hcolon hc]
      · simp [hc]
    rw [List.cons_append, splitPort.go, if_neg hstay, if_neg hopen, if_neg hclose,
      ih fun d hd ↦ h d (List.mem_cons_of_mem c hd), List.reverse_cons, List.append_assoc,
      List.singleton_append]

/-- No colon that the search stops at is in a host: those of an address are between brackets. -/
theorem splitPort_text_append {host : Host} (h : host.IsWritten) (rest : List Char) :
    splitPort (host.text ++ rest) = splitPort.go false host.text.reverse rest := by
  have hplain : ∀ cs : List Char, (∀ c ∈ cs, c ≠ ':' ∧ c ≠ '[' ∧ c ≠ ']') →
      splitPort (cs ++ rest) = splitPort.go false cs.reverse rest := by
    intro cs hcs
    rw [splitPort, splitPort_go_append, List.append_nil]
    exact fun c hc ↦ ⟨(hcs c hc).2.1, (hcs c hc).2.2, fun hcolon ↦ absurd hcolon (hcs c hc).1⟩
  cases h with
  | unstructured _ htext =>
    refine hplain _ fun c hc ↦ ⟨?_, ?_, ?_⟩ <;> rintro rfl <;>
      exact absurd (htext _ hc).1 (by decide)
  | web hweb =>
    cases hweb with
    | @domain name hne hname _ =>
      refine hplain name fun c hc ↦ ⟨?_, ?_, ?_⟩ <;> rintro rfl <;>
        exact absurd (hname _ hc) (by decide)
    | @ipv4 address _ =>
      refine hplain (Ipv4.text address) fun c hc ↦ ?_
      rcases Ipv4.of_mem_text hc with rfl | hc
      · decide
      · refine ⟨?_, ?_, ?_⟩ <;> rintro rfl <;> exact absurd hc (by decide)
    | @ipv6 pieces _ =>
      -- one step into the brackets, the colons between them, and one step out again
      have hinner : ∀ c ∈ Ipv6.text pieces, c ≠ '[' ∧ c ≠ ']' ∧ (c = ':' → true = true) := by
        intro c hc
        rcases Ipv6.of_mem_text hc with rfl | hc
        · decide
        · refine ⟨?_, ?_, fun _ ↦ rfl⟩ <;> rintro rfl <;> exact absurd hc (by decide)
      have htext : Host.text (.ipv6 pieces) ++ rest =
          '[' :: (Ipv6.text pieces ++ ']' :: rest) := by simp [Host.text]
      rw [htext, splitPort]
      show splitPort.go true ['['] (Ipv6.text pieces ++ ']' :: rest) = _
      rw [splitPort_go_append hinner]
      show splitPort.go false (']' :: ((Ipv6.text pieces).reverse ++ ['['])) rest = _
      simp [Host.text]

/-- **Host and port come apart.** -/
theorem splitPort_chars {host : Host} (h : host.IsWritten) (url : Url) :
    ∃ portText, splitPort (host.text ++ url.portChars) = (host.text, portText) ∧
      portText.getD [] = portDigits url.port := by
  rw [splitPort_text_append h, portChars]
  cases url.port with
  | none => exact ⟨none, by simp [splitPort.go], rfl⟩
  | some n => exact ⟨some (Nat.toDigits 10 n), by simp [splitPort.go], rfl⟩

/-! ### User information -/

/-- **User information comes off the front**, and name and password come apart. -/
theorem cut_userinfoChars (url : Url) (husername : ∀ c ∈ url.username, Percent.inUserinfo c = false)
    {rest : List Char} (hrest : '@' ∉ rest) :
    ∃ userinfo password, Text.cutAtLast (· = '@') (url.userinfoChars ++ rest) = (userinfo, rest) ∧
      Text.cutAt (· = ':') (userinfo.getD []) = (url.username, password) ∧
        password.getD [] = url.password := by
  have hcolon : ∀ c ∈ url.username, decide (c = ':') = false := by
    refine fun c hc ↦ decide_eq_false ?_
    rintro rfl
    exact absurd (husername _ hc) (by decide)
  have hat : ∀ c ∈ rest, decide (c = '@') = false := by
    refine fun c hc ↦ decide_eq_false ?_
    rintro rfl
    exact hrest hc
  unfold userinfoChars
  split
  · rename_i hnone
    rw [Bool.and_eq_true, List.isEmpty_iff, List.isEmpty_iff] at hnone
    rw [hnone.1, hnone.2]
    exact ⟨none, none, Text.cutAtLast_of_forall hat, rfl, rfl⟩
  · cases hpass : url.password with
    | nil =>
      refine ⟨some url.username, none, ?_, Text.cutAt_of_forall hcolon, rfl⟩
      have hcut := Text.cutAtLast_append_mark url.username hat (decide_eq_true rfl)
      simpa using hcut
    | cons c password =>
      refine ⟨some (url.username ++ ':' :: url.password), some url.password, ?_,
        Text.cutAt_append_mark hcolon rfl, hpass⟩
      have hcut := Text.cutAtLast_append_mark (url.username ++ ':' :: url.password) hat
        (decide_eq_true rfl)
      simpa [hpass] using hcut

/-! ### Owners -/

/-- No host and no port has the mark of user information. -/
theorem not_mem_hostAndPort {host : Host} (h : host.IsWritten) (url : Url) :
    '@' ∉ host.text ++ url.portChars := by
  rw [List.mem_append, not_or]
  constructor
  · intro hat
    rcases Host.of_mem_text h hat with hat | hat | hat | hat <;> exact absurd hat (by decide)
  · unfold portChars
    cases url.port with
    | none => exact List.not_mem_nil
    | some n =>
      intro hat
      rcases List.mem_cons.1 hat with hat | hat
      · exact absurd hat (by decide)
      · exact absurd (Nat.isDigit_of_mem_toDigits (by decide) (by decide) hat) (by decide)

/-- **A written owner reads as the owner**, but for its host. -/
theorem authority?_chars (h : IsOwner scheme a) {host : Host} (hhost : a.host = some host) :
    authority? scheme a.chars = (Host.parse? (isSpecialScheme scheme) host.text).map fun host ↦
      { a with host := some host } := by
  obtain ⟨host', hwritten, hsame⟩ := h.exists_host
  obtain rfl : host' = host := Option.some.inj (hsame.symm.trans hhost)
  obtain ⟨userinfo, password, hlast, hfirst, hpassword⟩ :=
    cut_userinfoChars (page [] a []) h.username (not_mem_hostAndPort hwritten (page [] a []))
  obtain ⟨portText, hsplit, hport⟩ := splitPort_chars hwritten (page [] a [])
  obtain ⟨digits, hdigits⟩ := h.port
  have hchars : a.chars = (page [] a []).userinfoChars ++
      (host'.text ++ (page [] a []).portChars) := by
    simp [Authority.chars, page, hhost]
  have hne : host'.text.isEmpty = false := by simpa using Host.text_ne_nil hwritten
  have hread : port? scheme (portText.getD []) = some a.port := by
    rw [hport]
    exact port?_portDigits hdigits
  have husername : Percent.encode Percent.inUserinfo (page [] a []).username = a.username :=
    Percent.encode_of_forall h.username
  have hsecret : Percent.encode Percent.inUserinfo (page [] a []).password = a.password :=
    Percent.encode_of_forall h.password
  simp only [authority?, hchars, hlast, hfirst, hsplit, hne, hread, hpassword, husername, hsecret]
  rw [if_neg Bool.false_ne_true]
  cases Host.parse? (isSpecialScheme scheme) host'.text <;> rfl

/-- **Two owners that read as each other are the same.** -/
theorem eq_of_authority?_chars {b : Authority} (hspecial : isSpecialScheme scheme = true)
    (hab : authority? scheme a.chars = some b) (hba : authority? scheme b.chars = some a) :
    a = b := by
  have ha := isOwner_of_authority? hspecial hba
  have hb := isOwner_of_authority? hspecial hab
  obtain ⟨host, -, hhost⟩ := ha.exists_host
  obtain ⟨host', -, hhost'⟩ := hb.exists_host
  rw [authority?_chars ha hhost, hspecial] at hab
  rw [authority?_chars hb hhost', hspecial] at hba
  obtain ⟨found, hfound, rfl⟩ := Option.map_eq_some_iff.1 hab
  obtain ⟨found', hfound', heq⟩ := Option.map_eq_some_iff.1 hba
  obtain rfl : found = host' := Option.some.inj hhost'
  have hsame : some found' = a.host := congrArg Authority.host heq
  obtain rfl : found' = host := Option.some.inj (hsame.trans hhost)
  rw [← Host.eq_of_parse?_text hfound hfound', ← hhost]

/-- **An owner that has been read is read back** if its host is stable. -/
theorem authority?_chars_of_authority? (h : authority? scheme cs = some a)
    (hstable : ∀ host ∈ a.host, host.IsStable) : authority? scheme a.chars = some a := by
  rcases isOwner_or_of_authority? h with howner | ⟨hspecial, rfl⟩
  · obtain ⟨text, host, -, hparse, hhost⟩ := howner.host
    have hread := Host.parse?_text hparse (hstable host hhost)
    rw [authority?_chars howner hhost, hread, Option.map_some, ← hhost]
  · show authority? scheme [] = _
    simp only [authority?, hspecial]
    rfl

end IndexSnapshot.Url
