import Mathlib.Data.List.Nodup
import SignedFirmware.Credential.Issue
import SignedFirmware.Proofs.Rsa.Signature
import SignedFirmware.Proofs.Trust.Check
import SignedFirmware.Trust.Chain

/-!
# Chains of trust are valid

What a walk goes through is described by `Leads`, one step at a time: every certificate that it
comes to passes the checks that hold anywhere, each but the last links to the next, and the last is
an anchor. `Valid` says the same of a whole chain by the positions in it, and adds what only shows
in the whole: that no certificate occurs twice and that there are not too many.

The number of intermediates that an issuer is checked against leaves out the self-issued ones. There
are none to leave out, as a walk ends at a self-issued certificate (`intermediates_eq`), so it is
the position of the certificate that was issued.
-/

namespace SignedFirmware.Trust.Chain

open X509 (Certificate)

variable {s : Setting} {pool before path : List Certificate} {cert issuer leaf : Certificate}

/-! ## What the parts of a chain have to meet -/

/-- What holds of every certificate of a chain. -/
structure Member (s : Setting) (cert : Certificate) : Prop where
  extensions : HandlesCritical cert
  period : s.policy.ignoreTime = false → InPeriod cert s.now

/-- What holds of a certificate and the next one of a chain. The position is that of the first. -/
structure Link (pool : List Certificate) (position : Nat) (cert issuer : Certificate) : Prop where
  mem : issuer ∈ pool
  named : issuer.subject = cert.issuer
  signed : SignedBy cert issuer
  mayIssue : MayIssue issuer position
  notSelfIssued : ¬cert.IsSelfIssued

/-- A chain may end at a certificate. -/
def Anchor (s : Setting) (cert : Certificate) : Prop :=
  cert ∈ s.store.certs ∧ (s.policy.partialChain = true ∨ cert.IsSelfIssued)

theorem checkMember_eq_ok_iff {u : Unit} : checkMember s cert = .ok u ↔ Member s cert := by
  have htime : (if (!s.policy.ignoreTime) = true then checkTime cert s.now else pure ()) = .ok u ↔
      (s.policy.ignoreTime = false → InPeriod cert s.now) := by
    cases s.policy.ignoreTime <;> simp [checkTime_eq_ok_iff]
  rw [checkMember, Checked.bind_eq_ok_iff]
  simp only [checkExtensions_eq_ok_iff, exists_const, htime]
  constructor
  · rintro ⟨hextensions, hperiod⟩
    exact ⟨hextensions, hperiod⟩
  · rintro ⟨hextensions, hperiod⟩
    exact ⟨hextensions, hperiod⟩

theorem isAnchor_iff : isAnchor s cert = true ↔ Anchor s cert := by
  simp [isAnchor, Anchor, Store.contains]

theorem checkDeparture_eq_ok_iff {size : Nat} {u : Unit} :
    checkDeparture s size cert = .ok u ↔ ¬cert.IsSelfIssued ∧ size < s.policy.maxDepth := by
  rw [checkDeparture]
  by_cases hself : cert.IsSelfIssued
  · simp [hself]
  · by_cases hdeep : s.policy.maxDepth ≤ size <;> simp [hself, hdeep]
    omega

/-! ## The search for an issuer -/

theorem signedBy_of_search {candidates : List Certificate}
    (h : (search cert candidates).issuer = some issuer) : SignedBy cert issuer := by
  induction candidates with
  | nil => simp [search] at h
  | cons candidate rest ih =>
    rw [search] at h
    split at h
    · rename_i hsignature
      obtain rfl : candidate = issuer := by simpa using h
      exact checkSignature_eq_ok_iff.1 hsignature
    · exact ih h

theorem mem_unused_iff {chain : List Certificate} :
    cert ∈ unused chain pool ↔ cert ∈ pool ∧ cert ∉ chain := by
  simp [unused]

theorem found_issuer {chain : List Certificate}
    (h : (searchIssuer chain pool cert).issuer = some issuer) :
    issuer ∈ pool ∧ issuer ∉ chain ∧ issuer.subject = cert.issuer ∧ SignedBy cert issuer := by
  obtain ⟨hunused, hname⟩ := List.mem_filter.1 (mem_of_search_issuer h)
  obtain ⟨hpool, hchain⟩ := mem_unused_iff.1 hunused
  exact ⟨hpool, hchain, of_decide_eq_true hname, signedBy_of_search h⟩

/-- None of the intermediates of a chain without self-issued certificates is left out. -/
theorem intermediates_eq {chain : List Certificate} (h : ∀ c ∈ chain, ¬c.IsSelfIssued) :
    intermediates chain = chain.length - 1 := by
  rw [intermediates, List.countP_eq_length.2, List.length_drop]
  intro c hc
  simpa using h c (List.mem_of_mem_drop hc)

/-! ## Walks -/

@[simp] theorem Walk.path_stop (cert : Certificate) (searches : List Search)
    (outcome : Except Blob.Error Unit) : (stop cert searches outcome).path = [cert] := rfl

@[simp] theorem Walk.outcome_stop (cert : Certificate) (searches : List Search)
    (outcome : Except Blob.Error Unit) : (stop cert searches outcome).outcome = outcome := rfl

@[simp] theorem Walk.path_step (cert : Certificate) (found : Search) (w : Walk) :
    (step cert found w).path = cert :: w.path := rfl

@[simp] theorem Walk.outcome_step (cert : Certificate) (found : Search) (w : Walk) :
    (step cert found w).outcome = w.outcome := rfl

/-- A walk keeps within the depth of the policy, wherever it ends. Only the certificate that it
starts from may be too deep. -/
theorem length_walk_le (s : Setting) (pool before : List Certificate) (cert : Certificate) :
    before.length + (walk s pool before cert).path.length ≤
      max (before.length + 1) s.policy.maxDepth := by
  fun_induction walk s pool before cert with
  | case1 => simp
  | case2 => simp
  | case3 => simp
  | case4 => simp
  | case5 => simp
  | case6 before cert _ _ chain hdeparture found issuer _ _ ih =>
    -- the walk goes on, so there is still room for one certificate more
    have hdeep := (checkDeparture_eq_ok_iff.1 hdeparture).2
    have hchain : chain.length = before.length + 1 := by simp [chain]
    rw [Walk.path_step, List.length_cons]
    omega

theorem nodup_walk (s : Setting) (pool : List Certificate) {before : List Certificate}
    {cert : Certificate} (h : (before ++ [cert]).Nodup) :
    (before ++ (walk s pool before cert).path).Nodup := by
  fun_induction walk s pool before cert with
  | case1 => exact h
  | case2 => exact h
  | case3 => exact h
  | case4 => exact h
  | case5 => exact h
  | case6 before cert _ _ chain _ found issuer hfound _ ih =>
    have hnew : issuer ∉ chain := (found_issuer hfound).2.1
    have hchain : (chain ++ [issuer]).Nodup := by
      rw [← List.concat_eq_append]
      exact List.Nodup.concat hnew h
    rw [Walk.path_step, List.append_cons]
    exact ih hchain

/-- The walk from a certificate at the given position of a chain goes along a path to an anchor. -/
inductive Leads (s : Setting) (pool : List Certificate) :
    Nat → Certificate → List Certificate → Prop
  | stop {position : Nat} {cert : Certificate} (hmember : Member s cert) (hanchor : Anchor s cert) :
    Leads s pool position cert [cert]
  | step {position : Nat} {cert issuer : Certificate} {path : List Certificate}
    (hmember : Member s cert) (hlink : Link pool position cert issuer)
    (hrest : Leads s pool (position + 1) issuer path) :
    Leads s pool position cert (cert :: path)

theorem leads_of_walk (hbefore : ∀ c ∈ before, ¬c.IsSelfIssued)
    (h : (walk s pool before cert).outcome = .ok ()) :
    Leads s pool before.length cert (walk s pool before cert).path := by
  fun_induction walk s pool before cert with
  | case1 => simp at h
  | case2 before cert hmember hanchor =>
    exact .stop (checkMember_eq_ok_iff.1 hmember) (isAnchor_iff.1 hanchor)
  | case3 => simp at h
  | case4 => simp at h
  | case5 => simp at h
  | case6 before cert hmember _ chain hdeparture found issuer hfound hissuer ih =>
    -- the walk leaves no self-issued certificate, so all but the first of the chain are counted
    have hself : ¬cert.IsSelfIssued := (checkDeparture_eq_ok_iff.1 hdeparture).1
    have hchain : ∀ c ∈ chain, ¬c.IsSelfIssued := by
      intro c hc
      rcases List.mem_append.1 hc with hc | hc
      · exact hbefore c hc
      · exact List.mem_singleton.1 hc ▸ hself
    have hlength : chain.length = before.length + 1 := by simp [chain]
    obtain ⟨hpool, -, hnamed, hsigned⟩ := found_issuer hfound
    have hmay : MayIssue issuer before.length := by
      have hcheck := checkIssuer_eq_ok_iff.1 hissuer
      rwa [intermediates_eq hchain, hlength, Nat.add_sub_cancel] at hcheck
    have hrest := ih hchain h
    rw [hlength] at hrest
    exact .step (checkMember_eq_ok_iff.1 hmember) ⟨hpool, hnamed, hsigned, hmay, hself⟩ hrest

/-! ## Paths by position -/

theorem Leads.head? {position : Nat} (h : Leads s pool position cert path) :
    path.head? = some cert := by
  cases h <;> rfl

theorem Leads.member {position : Nat} (h : Leads s pool position cert path) :
    ∀ c ∈ path, Member s c := by
  induction h with
  | stop hmember _ => simpa using hmember
  | step hmember _ _ ih => exact List.forall_mem_cons.2 ⟨hmember, ih⟩

theorem Leads.link {position : Nat} (h : Leads s pool position cert path) :
    ∀ i (hi : i + 1 < path.length), Link pool (position + i) path[i] path[i + 1] := by
  induction h with
  | stop _ _ => simp
  | @step position cert issuer path _ hlink hrest ih =>
    intro i hi
    cases i with
    | zero =>
      obtain ⟨rest, rfl⟩ := List.head?_eq_some_iff.1 hrest.head?
      exact hlink
    | succ i =>
      have hshift : position + (i + 1) = position + 1 + i := by omega
      rw [hshift]
      exact ih i (Nat.lt_of_succ_lt_succ hi)

theorem Leads.anchor {position : Nat} (h : Leads s pool position cert path) :
    ∃ c, path.getLast? = some c ∧ Anchor s c := by
  induction h with
  | stop _ hanchor => exact ⟨_, rfl, hanchor⟩
  | step _ _ hrest ih =>
    obtain ⟨c, hlast, hanchor⟩ := ih
    exact ⟨c, by rw [List.getLast?_cons, hlast]; rfl, hanchor⟩

/-- The statements about the positions make up a path again. -/
theorem leads_of_links {position : Nat} (hhead : path.head? = some cert)
    (hlink : ∀ i (hi : i + 1 < path.length), Link pool (position + i) path[i] path[i + 1])
    (hmember : ∀ c ∈ path, Member s c) (hanchor : ∃ c, path.getLast? = some c ∧ Anchor s c) :
    Leads s pool position cert path := by
  induction path generalizing position cert with
  | nil => cases hhead
  | cons first rest ih =>
    obtain rfl : first = cert := Option.some.inj hhead
    have hfirst : Member s first := hmember first List.mem_cons_self
    obtain ⟨last, hlast, hend⟩ := hanchor
    cases rest with
    | nil =>
      obtain rfl : first = last := Option.some.inj hlast
      exact .stop hfirst hend
    | cons second more =>
      have hstep : Link pool position first second := hlink 0 (by simp)
      refine .step hfirst hstep (ih rfl ?_ ?_ ⟨last, ?_, hend⟩)
      · intro i hi
        have hnext := hlink (i + 1) (Nat.succ_lt_succ hi)
        rwa [show position + (i + 1) = position + 1 + i from by omega] at hnext
      · intro c hc
        exact hmember c (List.mem_cons_of_mem first hc)
      · rwa [List.getLast?_cons_cons] at hlast

/-! ## Chains -/

/-- A chain from a leaf to an anchor is valid, with some certificates that are not trusted at
hand. -/
structure Valid (s : Setting) (untrusted : List Certificate) (leaf : Certificate)
    (path : List Certificate) : Prop where
  /-- It starts at the leaf. -/
  head : path.head? = some leaf
  /-- It has at most the certificates that the policy allows; the leaf alone is never too much. -/
  depth : path.length ≤ max 1 s.policy.maxDepth
  distinct : path.Nodup
  /-- Each certificate links to the next one. -/
  link : ∀ i (hi : i + 1 < path.length),
    Link (s.store.certs ++ untrusted) i path[i] path[i + 1]
  /-- Each certificate passes the checks that hold anywhere. -/
  member : ∀ c ∈ path, Member s c
  purpose : AllowsPurpose leaf s.policy.purpose
  /-- It ends at an anchor. -/
  anchor : ∃ c, path.getLast? = some c ∧ Anchor s c

theorem verify_eq_ok_iff {untrusted : List Certificate} :
    verify s leaf untrusted = .ok path ↔
      AllowsPurpose leaf s.policy.purpose ∧ (walkFrom s leaf untrusted).outcome = .ok () ∧
        (walkFrom s leaf untrusted).path = path := by
  simp only [verify, Checked.bind_eq_ok_iff, checkPurpose_eq_ok_iff, exists_const,
    Checked.pure_eq_ok_iff]
  refine and_congr_right fun _ ↦ ?_
  constructor
  · rintro ⟨_, houtcome, hpath⟩
    exact ⟨houtcome, hpath⟩
  · rintro ⟨houtcome, hpath⟩
    exact ⟨_, houtcome, hpath⟩

theorem Leads.valid {untrusted : List Certificate} (hpurpose : AllowsPurpose leaf s.policy.purpose)
    (hdepth : path.length ≤ max 1 s.policy.maxDepth) (hdistinct : path.Nodup)
    (h : Leads s (s.store.certs ++ untrusted) 0 leaf path) : Valid s untrusted leaf path where
  head := h.head?
  depth := hdepth
  distinct := hdistinct
  link i hi := by simpa using h.link i hi
  member := h.member
  purpose := hpurpose
  anchor := h.anchor

/-- **A chain that is accepted is valid.** -/
theorem valid_of_verify {untrusted : List Certificate} (h : verify s leaf untrusted = .ok path) :
    Valid s untrusted leaf path := by
  obtain ⟨hpurpose, houtcome, rfl⟩ := verify_eq_ok_iff.1 h
  -- the walk starts with nothing before the leaf, so position and number of certificates agree
  have hleads : Leads s (s.store.certs ++ untrusted) 0 leaf (walkFrom s leaf untrusted).path :=
    leads_of_walk (by simp) houtcome
  have hdepth := length_walk_le s (s.store.certs ++ untrusted) [] leaf
  rw [List.length_nil, Nat.zero_add, Nat.zero_add] at hdepth
  have hdistinct : ([] ++ (walkFrom s leaf untrusted).path).Nodup :=
    nodup_walk s (s.store.certs ++ untrusted) (List.nodup_singleton leaf)
  exact hleads.valid hpurpose hdepth hdistinct

/-! ## A chain of three -/

/-- A name of one attribute. -/
def sampleName (text : Bytes) : X509.Name :=
  ⟨[[⟨⟨[0x55, 0x04, 0x03]⟩, ⟨Der.Tag.utf8String, text⟩⟩]]⟩

/-- A certificate for the sample key, with a signature in two halves. It holds for the year 2024. -/
def sampleCertificate (role : Credential.Role) (serial issuer subject : Bytes) (high low : Nat) :
    Certificate :=
  let key := Rsa.sampleKey.publicKey.toInfo
  { tbs :=
      { version := .v3
        serial
        signature := Credential.signingAlgorithm
        issuer := sampleName issuer
        validity := ⟨⟨.utc, ⟨2024, 1, 1, 0, 0, 0⟩⟩, ⟨.utc, ⟨2024, 12, 31, 23, 59, 59⟩⟩⟩
        subject := sampleName subject
        publicKey := key
        issuerUniqueId := none
        subjectUniqueId := none
        extensions := some (Credential.newExtensions role key key) }
    signatureAlgorithm := Credential.signingAlgorithm
    signature := ⟨0, Bytes.ofNatBE 32 high ++ Bytes.ofNatBE 32 low⟩ }

/-- A root with the name "R", signed with the sample key. -/
def sampleRoot : Certificate := sampleCertificate .root [1] [0x52] [0x52]
  0xb0ebdafa84bcd7e1d2cc4c07467e240f58146852c407fa7e932dfe5c9e326505
  0x4475c520ef14c9bd8f58c396e0b47f5a0ebf073e4d3cc6f7375347752d5707ea

/-- An authority with the name "A" below the root, signed with the sample key. -/
def sampleAuthority : Certificate := sampleCertificate .authority [2] [0x52] [0x41]
  0x52c4cc6a8880dc05d35dee1867bb29060f1c6201e2e9e705b68fd4d47a85d854
  0x8ba083136149dfec37ea129d9c30bef0d125ef7f9b30c89d90223d48fb86b4da

/-- A leaf with the name "L" below the authority, signed with the sample key. -/
def sampleLeaf : Certificate := sampleCertificate .leaf [3] [0x41] [0x4c]
  0xd7a9c9e9aa681b47f7304e0082b42436ffa940c89a53917dfa06a0cef4d06655
  0x8de8b0a7a95c98b15347dc3a31e4626ee6b747f630b76bdfc299c9e0188c946f

/-- A strict policy, at a moment of the year 2024, with trust in the root alone. -/
def sampleSetting : Setting where
  store := ⟨[sampleRoot]⟩
  policy := { partialChain := false, ignoreTime := false, purpose := .codeSigning, maxDepth := 3 }
  now := .ofSeconds 1719792000

/-- The leaf, the authority and the root make a chain under that policy, and it is valid. -/
theorem valid_of_verify_three :
    verify sampleSetting sampleLeaf [sampleAuthority] =
        .ok [sampleLeaf, sampleAuthority, sampleRoot] ∧
      Valid sampleSetting [sampleAuthority] sampleLeaf
        [sampleLeaf, sampleAuthority, sampleRoot] := by
  have h : verify sampleSetting sampleLeaf [sampleAuthority] =
      .ok [sampleLeaf, sampleAuthority, sampleRoot] := by
    decide +kernel
  exact ⟨h, valid_of_verify h⟩

end SignedFirmware.Trust.Chain
