import Mathlib.Data.List.Chain
import SignedFirmware.Proofs.Credential.Issue
import SignedFirmware.Proofs.Trust.Completeness

/-!
# New hierarchies are accepted

The writer of certificates and the checks of a chain know nothing of each other, and have to agree.
A hierarchy is a root that signed itself, authorities of which each was issued by the one above it,
and a last certificate. In such a hierarchy each certificate passes every check that is made of it
and of its issuer (`isChain_of_hierarchy`), at whatever depth, as new authorities put no limit on
what is below them.

Different names do the rest. Nothing but the root is self-issued then, and no certificate has two
issuers. So a walk goes up the hierarchy and nowhere else, in whatever order the certificates are at
hand, until it is at the one that is trusted.
-/

namespace SignedFirmware.Trust

open Credential (Issued Issuer issue roleOf)
open X509 (Certificate)

/-! ## Issuers -/

/-- A key that signatures can be made with and checked. -/
structure Usable (k : Rsa.PrivateKey) : Prop where
  /-- Private keys are sound, as all are that were read or made. -/
  sound : k.IsSound
  /-- The key is not too large. -/
  size : k.size ≤ Credential.maxKeySize

/-- An issuer holds a usable key that belongs to their certificate, and may sign certificates. -/
structure Able (i : Issuer) : Prop where
  key : Usable i.key
  publicKey : i.certificate.tbs.publicKey = i.key.publicKey.toInfo
  mayIssue : ∀ below, MayIssue i.certificate below

theorem able_of_issued {key : Rsa.PrivateKey} {issuer : Option Issuer} {ca : Bool} {c : Certificate}
    (hkey : Usable key) (hrole : (roleOf issuer ca).isCa = true) (h : Issued key issuer ca c) :
    Able ⟨key, c⟩ where
  key := hkey
  publicKey := h.publicKey
  mayIssue below :=
    { keyUsage := by
        refine .inr ⟨_, h.keyUsage, ?_⟩
        rw [Credential.Role.keyUsage, if_pos hrole]
        decide
      constraints := .inr ⟨_, h.basicConstraints, hrole, fun _ hlimit ↦ nomatch hlimit⟩ }

/-- Whoever is able to sign certificates passes for the issuer of those that they issue. -/
theorem issues_of_issued {i : Issuer} {key : Rsa.PrivateKey} {ca : Bool} {c : Certificate}
    (hi : Able i) (h : Issued key (some i) ca c) : Chain.Issues i.certificate c := by
  obtain ⟨signature, hsignature, hsign⟩ := h.signed
  refine ⟨h.named.symm, h.short, .sha256, signature, ?_, hsignature, i.key.publicKey, ?_, ?_⟩
  · rw [h.algorithm]
    rfl
  · rw [hi.publicKey]
    exact Rsa.PublicKey.ofInfo?_toInfo hi.key.sound.1 hi.key.size
  · exact Rsa.PrivateKey.verifies_of_sign? hi.key.sound hsign

theorem handlesCritical_of_issued {key : Rsa.PrivateKey} {issuer : Option Issuer} {ca : Bool}
    {c : Certificate} (h : Issued key issuer ca c) : HandlesCritical c :=
  fun x hx _ ↦ h.handled x hx

/-! ## Hierarchies -/

/-- Authorities below a root, the last one first. The root was issued by nobody and each authority
by the next one. -/
inductive Hierarchy (root : Issuer) : List Issuer → Prop
  | root {serial : Nat} {validity : X509.Validity} {subject : String} {ca : Bool}
    (hkey : Usable root.key)
    (hissue : issue root.key none serial validity subject ca = .ok root.certificate) :
    Hierarchy root []
  | authority {authority : Issuer} {above : List Issuer} {serial : Nat} {validity : X509.Validity}
    {subject : String} (hkey : Usable authority.key)
    (hissue : issue authority.key (above ++ [root]).head? serial validity subject true =
      .ok authority.certificate)
    (habove : Hierarchy root above) : Hierarchy root (authority :: above)

/-- The certificates of a hierarchy, those of the root at the end. -/
def certificates (root : Issuer) (authorities : List Issuer) : List Certificate :=
  (authorities ++ [root]).map Issuer.certificate

/-- A certificate and its issuer pass the checks that are made of the two. -/
structure Descends (c issuer : Certificate) : Prop where
  issues : Chain.Issues issuer c
  mayIssue : ∀ below, MayIssue issuer below

variable {root : Issuer} {authorities : List Issuer}

theorem exists_head?_hierarchy (root : Issuer) (authorities : List Issuer) :
    ∃ i, (authorities ++ [root]).head? = some i := by
  cases authorities with
  | nil => exact ⟨root, rfl⟩
  | cons authority above => exact ⟨authority, rfl⟩

/-- All issuers of a hierarchy are able to sign certificates. -/
theorem Hierarchy.able (h : Hierarchy root authorities) : ∀ i ∈ authorities ++ [root], Able i := by
  induction h with
  | root hkey hissue =>
    rw [List.nil_append, List.forall_mem_singleton]
    exact able_of_issued hkey rfl (Credential.issued_of_issue hissue)
  | @authority _ above _ _ _ hkey hissue _ ih =>
    obtain ⟨i, hi⟩ := exists_head?_hierarchy root above
    rw [hi] at hissue
    rw [List.cons_append, List.forall_mem_cons]
    exact ⟨able_of_issued hkey rfl (Credential.issued_of_issue hissue), ih⟩

/-- What the next issuer of a hierarchy issues descends from them. -/
theorem Hierarchy.descends (h : Hierarchy root authorities) {key : Rsa.PrivateKey} {ca : Bool}
    {c : Certificate} (hissued : Issued key (authorities ++ [root]).head? ca c) :
    ∀ issuer ∈ (certificates root authorities).head?, Descends c issuer := by
  obtain ⟨i, hi⟩ := exists_head?_hierarchy root authorities
  rw [hi] at hissued
  have hable := h.able i (List.mem_of_head? hi)
  rw [certificates, List.head?_map, hi]
  rintro _ ⟨⟩
  exact ⟨issues_of_issued hable hissued, hable.mayIssue⟩

theorem isChain_of_hierarchy (h : Hierarchy root authorities) :
    (certificates root authorities).IsChain Descends := by
  induction h with
  | root => exact .singleton _
  | authority hkey hissue habove ih =>
    exact List.isChain_cons.2 ⟨habove.descends (Credential.issued_of_issue hissue), ih⟩

theorem Hierarchy.handlesCritical (h : Hierarchy root authorities) :
    ∀ c ∈ certificates root authorities, HandlesCritical c := by
  induction h with
  | root _ hissue =>
    rw [certificates, List.nil_append, List.map_singleton, List.forall_mem_singleton]
    exact handlesCritical_of_issued (Credential.issued_of_issue hissue)
  | authority _ hissue _ ih =>
    rw [certificates, List.cons_append, List.map_cons, List.forall_mem_cons]
    exact ⟨handlesCritical_of_issued (Credential.issued_of_issue hissue), ih⟩

theorem Hierarchy.isSelfIssued_root (h : Hierarchy root authorities) :
    root.certificate.IsSelfIssued := by
  induction h with
  | root _ hissue => exact (Credential.issued_of_issue hissue).named.symm
  | authority _ _ _ ih => exact ih

/-! ## Walks up a hierarchy -/

namespace Chain

variable {s : Setting} {policy : Policy} {now : Instant} {pool rest : List Certificate}
  {c leaf trusted : Certificate}

/-- Where each certificate descends from the next, a path leads up to any of them that is an anchor,
provided that the issuers on the way are at hand. -/
theorem exists_leads_of_descends {position : Nat} (hchain : (c :: rest).IsChain Descends)
    (hnames : ((c :: rest).map Certificate.subject).Nodup) (hmember : ∀ x ∈ c :: rest, Member s x)
    (htrusted : trusted ∈ c :: rest) (hanchor : Anchor s trusted) (hstore : trusted ∈ pool)
    (hpool : ∀ x ∈ rest.dropLast, x ∈ pool) :
    ∃ path, path <+: c :: rest ∧ path.getLast? = some trusted ∧ Leads s pool position c path := by
  induction rest generalizing c position with
  | nil =>
    obtain rfl := List.mem_singleton.1 htrusted
    exact ⟨[trusted], List.prefix_rfl, rfl, .stop (hmember _ List.mem_cons_self) hanchor⟩
  | cons issuer above ih =>
    obtain ⟨hfirst, hmore⟩ := List.forall_mem_cons.1 hmember
    rcases List.mem_cons.1 htrusted with rfl | hbehind
    · exact ⟨[trusted], ⟨_, rfl⟩, rfl, .stop hfirst hanchor⟩
    obtain ⟨hdescends, habove⟩ := List.isChain_cons_cons.1 hchain
    obtain ⟨hnew, hnames⟩ := List.nodup_cons.1 hnames
    have hlower : ∀ x ∈ above.dropLast, x ∈ pool := fun x hx ↦ by
      refine hpool x ?_
      rw [List.dropLast_cons_of_ne_nil (by rintro rfl; cases hx)]
      exact List.mem_cons_of_mem issuer hx
    obtain ⟨path, hfront, hlast, hleads⟩ :=
      @ih issuer (position + 1) habove hnames hmore hbehind hlower
    -- only the last certificate may be missing from the pool, and there the path has ended
    have hissuer : issuer ∈ pool := by
      rcases List.mem_cons.1 hbehind with rfl | hlater
      · exact hstore
      · refine hpool issuer ?_
        rw [List.dropLast_cons_of_ne_nil (List.ne_nil_of_mem hlater)]
        exact List.mem_cons_self
    -- a certificate that is self-issued has the name of the one above it
    have hself : ¬c.IsSelfIssued := by
      intro hself
      refine hnew (List.mem_map.2 ⟨issuer, List.mem_cons_self, ?_⟩)
      exact hdescends.issues.named.trans hself.symm
    have hlink : Link pool position c issuer :=
      ⟨hissuer, hdescends.issues.named, hdescends.issues.signed, hdescends.mayIssue _, hself⟩
    refine ⟨c :: path, List.cons_prefix_cons.2 ⟨rfl, hfront⟩, ?_, .step hfirst hlink hleads⟩
    rw [List.getLast?_cons, hlast]
    rfl

/-- Certificates with different names have no rivals among themselves. -/
theorem unambiguous_of_names (hnames : ((leaf :: rest).map Certificate.subject).Nodup)
    (hpool : ∀ x ∈ pool, x ∈ leaf :: rest) : Unambiguous pool leaf := by
  intro cert _ issuer hissuer rival hrival hissues hrivals
  exact List.inj_on_of_nodup_map hnames (hpool issuer hissuer) (hpool rival hrival)
    (hissues.named.trans hrivals.named.symm)

theorem exists_anchor_of_verify {path : List Certificate} (h : verify s leaf pool = .ok path) :
    ∃ x, path.getLast? = some x ∧ Anchor s x := by
  obtain ⟨-, houtcome, rfl⟩ := verify_eq_ok_iff.1 h
  exact (leads_of_walk (by simp) houtcome).anchor

/-- A single trusted certificate is where the walk up from the leaf ends. -/
theorem verify_of_descends (hchain : (leaf :: rest).IsChain Descends)
    (hnames : ((leaf :: rest).map Certificate.subject).Nodup)
    (hcritical : ∀ x ∈ leaf :: rest, HandlesCritical x) (hpool : ∀ x ∈ pool, x ∈ leaf :: rest)
    (hissuers : ∀ x ∈ rest.dropLast, x ∈ pool) (htime : policy.ignoreTime = true)
    (hpurpose : policy.purpose = .any) (hdepth : rest.length + 1 ≤ policy.maxDepth)
    (htrusted : trusted ∈ leaf :: rest)
    (hanchor : policy.partialChain = true ∨ trusted.IsSelfIssued) :
    ∃ path, path <+: leaf :: rest ∧ path.getLast? = some trusted ∧
      verify ⟨⟨[trusted]⟩, policy, now⟩ leaf pool = .ok path := by
  set s : Setting := ⟨⟨[trusted]⟩, policy, now⟩
  have hmember : ∀ x ∈ leaf :: rest, Member s x := fun x hx ↦
    ⟨hcritical x hx, fun hstrict ↦ absurd htime (Bool.eq_false_iff.1 hstrict)⟩
  have hhand : ∀ x ∈ s.store.certs ++ pool, x ∈ leaf :: rest :=
    List.forall_mem_append.2 ⟨List.forall_mem_singleton.2 htrusted, hpool⟩
  have hpurpose : AllowsPurpose leaf s.policy.purpose := by
    intro required hrequired
    rw [show s.policy.purpose = .any from hpurpose] at hrequired
    cases hrequired
  have hend : Anchor s trusted := ⟨List.mem_singleton_self trusted, hanchor⟩
  have hway : ∀ x ∈ rest.dropLast, x ∈ s.store.certs ++ pool := fun x hx ↦
    List.mem_append_right _ (hissuers x hx)
  obtain ⟨path, hfront, hlast, hleads⟩ : ∃ path, path <+: leaf :: rest ∧
      path.getLast? = some trusted ∧ Leads s (s.store.certs ++ pool) 0 leaf path :=
    exists_leads_of_descends hchain hnames hmember htrusted hend List.mem_cons_self hway
  have hdistinct : path.Nodup := (List.Nodup.of_map _ hnames).sublist hfront.sublist
  have hshort : path.length ≤ max 1 s.policy.maxDepth :=
    (hfront.length_le.trans hdepth).trans (le_max_right _ _)
  obtain ⟨taken, htaken, hverify⟩ := verify_eq_ok_of_valid (unambiguous_of_names hnames hhand)
    (hleads.valid hpurpose hshort hdistinct)
  -- the walk may stop early only at an anchor, and there is no other
  obtain ⟨x, hx, hanchor, -⟩ := exists_anchor_of_verify hverify
  obtain rfl : x = trusted := List.mem_singleton.1 hanchor
  obtain rfl : taken = path := eq_of_prefix_of_getLast? hdistinct htaken hx hlast
  exact ⟨taken, hfront, hlast, hverify⟩

/-! ## New hierarchies -/

theorem dropLast_certificates (root : Issuer) (authorities : List Issuer) :
    (certificates root authorities).dropLast = authorities.map Issuer.certificate := by
  rw [certificates, List.map_append, List.map_singleton, List.dropLast_concat]

theorem getLast?_certificates (root : Issuer) (authorities : List Issuer) :
    (certificates root authorities).getLast? = some root.certificate := by
  rw [certificates, List.map_append, List.map_singleton, List.getLast?_concat]

/-- **New hierarchies are accepted.** Let a root and authorities have issued one another, and the
last of them a certificate, all with usable keys and under different names. Under a policy that
leaves periods unchecked, allows all purposes and has room for all of them, trust in the root is
enough for the last certificate to be accepted, with nothing but certificates of the hierarchy at
hand, among them those of all authorities, in any order. With partial chains, trust in any one of
the certificates is enough, and the chain ends there. -/
theorem verify_hierarchy {key : Rsa.PrivateKey} {serial : Nat} {validity : X509.Validity}
    {subject : String} {ca : Bool} {final : Certificate} (now : Instant)
    (h : Hierarchy root authorities)
    (hfinal : issue key (authorities ++ [root]).head? serial validity subject ca = .ok final)
    (hnames : ((final :: certificates root authorities).map Certificate.subject).Nodup)
    (hpool : ∀ c ∈ pool, c ∈ final :: certificates root authorities)
    (hauthorities : ∀ a ∈ authorities, a.certificate ∈ pool) (htime : policy.ignoreTime = true)
    (hpurpose : policy.purpose = .any) (hdepth : authorities.length + 2 ≤ policy.maxDepth) :
    verify ⟨⟨[root.certificate]⟩, policy, now⟩ final pool =
        .ok (final :: certificates root authorities) ∧
      (policy.partialChain = true → ∀ trusted ∈ final :: certificates root authorities,
        ∃ path, path <+: final :: certificates root authorities ∧ path.getLast? = some trusted ∧
          verify ⟨⟨[trusted]⟩, policy, now⟩ final pool = .ok path) := by
  have hissued := Credential.issued_of_issue hfinal
  have hchain : (final :: certificates root authorities).IsChain Descends :=
    List.isChain_cons.2 ⟨h.descends hissued, isChain_of_hierarchy h⟩
  have hcritical : ∀ c ∈ final :: certificates root authorities, HandlesCritical c :=
    List.forall_mem_cons.2 ⟨handlesCritical_of_issued hissued, h.handlesCritical⟩
  have hissuers : ∀ c ∈ (certificates root authorities).dropLast, c ∈ pool := by
    rw [dropLast_certificates, List.forall_mem_map]
    exact hauthorities
  have hlength : (certificates root authorities).length + 1 ≤ policy.maxDepth := by
    rwa [certificates, List.length_map, List.length_append, List.length_singleton]
  have hlast : (final :: certificates root authorities).getLast? = some root.certificate := by
    rw [List.getLast?_cons, getLast?_certificates]
    rfl
  have hwalk : ∀ trusted ∈ final :: certificates root authorities,
      policy.partialChain = true ∨ trusted.IsSelfIssued →
        ∃ path, path <+: final :: certificates root authorities ∧ path.getLast? = some trusted ∧
          verify ⟨⟨[trusted]⟩, policy, now⟩ final pool = .ok path := fun _ ↦
    verify_of_descends hchain hnames hcritical hpool hissuers htime hpurpose hlength
  refine ⟨?_, fun hpartial trusted htrusted ↦ hwalk trusted htrusted (.inl hpartial)⟩
  -- without repetitions, a front of the hierarchy that ends at its root is all of it
  obtain ⟨path, hfront, hend, hverify⟩ :=
    hwalk root.certificate (List.mem_of_getLast? hlast) (.inr h.isSelfIssued_root)
  rwa [eq_of_prefix_of_getLast? (List.Nodup.of_map _ hnames) hfront hend hlast] at hverify

/-- The year 2024. -/
def sampleValidity : X509.Validity :=
  ⟨⟨.utc, ⟨2024, 1, 1, 0, 0, 0⟩⟩, ⟨.utc, ⟨2024, 12, 31, 23, 59, 59⟩⟩⟩

/-- The chain of three is a new hierarchy. -/
theorem hierarchy_three :
    Hierarchy ⟨Rsa.sampleKey, sampleRoot⟩ [⟨Rsa.sampleKey, sampleAuthority⟩] := by
  have hkey : Usable Rsa.sampleKey := ⟨Rsa.isSound_sampleKey, by decide +kernel⟩
  have hroot : issue Rsa.sampleKey none 1 sampleValidity "CN=R" true = .ok sampleRoot := by
    decide +kernel
  have hauthority : issue Rsa.sampleKey (some ⟨Rsa.sampleKey, sampleRoot⟩) 2 sampleValidity "CN=A"
      true = .ok sampleAuthority := by
    decide +kernel
  exact .authority hkey hauthority (.root hkey hroot)

/-- Its leaf is accepted by someone who trusts the root, and with a shorter chain by someone who
trusts the authority. -/
theorem verify_hierarchy_three :
    issue Rsa.sampleKey (some ⟨Rsa.sampleKey, sampleAuthority⟩) 3 sampleValidity "CN=L" false =
        .ok sampleLeaf ∧
      ([sampleLeaf, sampleAuthority, sampleRoot].map Certificate.subject).Nodup ∧
      verify ⟨⟨[sampleRoot]⟩, {}, sampleSetting.now⟩ sampleLeaf [sampleLeaf, sampleAuthority] =
        .ok [sampleLeaf, sampleAuthority, sampleRoot] ∧
      ∃ path, path.getLast? = some sampleAuthority ∧
        verify ⟨⟨[sampleAuthority]⟩, {}, sampleSetting.now⟩ sampleLeaf
          [sampleLeaf, sampleAuthority] = .ok path := by
  have hfinal : issue Rsa.sampleKey (some ⟨Rsa.sampleKey, sampleAuthority⟩) 3 sampleValidity "CN=L"
      false = .ok sampleLeaf := by
    decide +kernel
  have hnames : ([sampleLeaf, sampleAuthority, sampleRoot].map Certificate.subject).Nodup := by
    decide +kernel
  have hhand : ∀ c ∈ [sampleLeaf, sampleAuthority],
      c ∈ [sampleLeaf, sampleAuthority, sampleRoot] := by
    simp
  have hauthorities : ∀ a ∈ [(⟨Rsa.sampleKey, sampleAuthority⟩ : Issuer)],
      a.certificate ∈ [sampleLeaf, sampleAuthority] := by
    simp
  have htime : ({} : Policy).ignoreTime = true := rfl
  obtain ⟨hroot, hpartial⟩ := verify_hierarchy sampleSetting.now hierarchy_three hfinal hnames hhand
    hauthorities htime rfl (by decide)
  obtain ⟨path, -, hend, hverify⟩ := hpartial rfl sampleAuthority (by simp [certificates])
  exact ⟨hfinal, hnames, hroot, path, hend, hverify⟩

end Chain

end SignedFirmware.Trust
