import SignedFirmware.Proofs.Trust.Walk

/-!
# Certificates that an anchor issued

A store with a single certificate that may end a chain, and a leaf that this certificate issued: the
walk has one step to make. The store comes before the certificates that are not trusted, so these
cannot lead it elsewhere. But a walk never leaves a self-issued certificate. One that is not trusted
itself, such as a new certificate of an authority that was signed with its old key, is taken for a
root that nobody trusts, whoever issued it.
-/

namespace SignedFirmware.Trust.Chain

open X509 (Certificate)

variable {s : Setting} {pool before : List Certificate} {cert leaf root : Certificate}

/-- The first certificate of a pool is found if it passes for the issuer and is new to the chain. -/
theorem searchIssuer_cons {chain : List Certificate} (hnew : root ∉ chain)
    (hissues : Issues root cert) : (searchIssuer chain (root :: pool) cert).issuer = some root := by
  rw [issuer_searchIssuer]
  exact List.find?_cons_of_pos (decide_eq_true ⟨hnew, hissues⟩)

/-- A walk that comes to a self-issued certificate ends there. -/
theorem walk_of_isSelfIssued (hmember : Member s cert) (hanchor : ¬Anchor s cert)
    (hself : cert.IsSelfIssued) :
    walk s pool before cert = .stop cert [] (.error (.untrustedRoot cert.subject)) := by
  rw [walk, (checkMember_eq_ok_iff (u := ())).2 hmember]
  dsimp only
  rw [if_neg fun hcontra ↦ hanchor (isAnchor_iff.1 hcontra), checkDeparture, if_pos hself]

/-- Once the purpose is checked, the walk decides. -/
theorem verify_eq_of_walk {untrusted : List Certificate}
    (hpurpose : AllowsPurpose leaf s.policy.purpose) :
    verify s leaf untrusted =
      (walkFrom s leaf untrusted).outcome.map fun _ ↦ (walkFrom s leaf untrusted).path := by
  rw [verify, (checkPurpose_eq_ok_iff (u := ())).2 hpurpose]
  cases houtcome : (walkFrom s leaf untrusted).outcome with
  | error e => simp only [bind, Except.bind, houtcome, Except.map]
  | ok u => simp only [bind, Except.bind, houtcome, Except.map, pure, Except.pure]

/-- **Certificates that an anchor issued.** Let the store hold one certificate, at which a chain may
end. A leaf that it issued is accepted with the chain of the two, unless the leaf is self-issued.
A self-issued leaf is accepted if it is the trusted certificate, and refused as a root that nobody
trusts if it is not. -/
theorem verify_of_issued_by_anchor (hstore : s.store = ⟨[root]⟩) (hdepth : 2 ≤ s.policy.maxDepth)
    (hpartial : s.policy.partialChain = true ∨ root.IsSelfIssued)
    (hpurpose : AllowsPurpose leaf s.policy.purpose) (hleaf : Member s leaf)
    (hroot : Member s root) (hissues : Issues root leaf) (hmay : MayIssue root 0)
    (untrusted : List Certificate) :
    (¬leaf.IsSelfIssued → verify s leaf untrusted = .ok [leaf, root]) ∧
      (leaf = root → verify s leaf untrusted = .ok [leaf]) ∧
      (leaf.IsSelfIssued → leaf ≠ root →
        verify s leaf untrusted = .error (.untrustedRoot leaf.subject)) := by
  have hanchor : Anchor s root := ⟨by simp [hstore], hpartial⟩
  have hother : leaf ≠ root → ¬Anchor s leaf := by
    intro hne hcontra
    have hmem := hcontra.1
    rw [hstore] at hmem
    exact hne (List.mem_singleton.1 hmem)
  refine ⟨fun hself ↦ ?_, ?_, fun hself hne ↦ ?_⟩
  · have hne : leaf ≠ root := by
      rintro rfl
      exact hself hissues.named
    -- the store stands in front of the other certificates, so the anchor is tried first
    have hfound : (searchIssuer [leaf] (s.store.certs ++ untrusted) leaf).issuer = some root := by
      rw [hstore]
      exact searchIssuer_cons (by simpa using hne.symm) hissues
    have honward : Onward s (s.store.certs ++ untrusted) [] leaf root :=
      ⟨hself, hdepth, hfound, hmay⟩
    exact verify_eq_ok_iff_takes.2
      ⟨hpurpose, .step hleaf (hother hne) honward (.stop hroot hanchor)⟩
  · rintro rfl
    exact verify_eq_ok_iff_takes.2 ⟨hpurpose, .stop hroot hanchor⟩
  · rw [verify_eq_of_walk hpurpose, walkFrom, walk_of_isSelfIssued hleaf (hother hne) hself]
    rfl

/-- The authority below the root is accepted as a leaf by whoever trusts the root alone, under the
strict policy. -/
theorem verify_of_issued_by_anchor_authority :
    AllowsPurpose sampleAuthority sampleSetting.policy.purpose ∧
      Member sampleSetting sampleAuthority ∧ Member sampleSetting sampleRoot ∧
      Issues sampleRoot sampleAuthority ∧ MayIssue sampleRoot 0 ∧
      ¬sampleAuthority.IsSelfIssued ∧
      verify sampleSetting sampleAuthority [sampleLeaf] = .ok [sampleAuthority, sampleRoot] := by
  have hpurpose : AllowsPurpose sampleAuthority sampleSetting.policy.purpose :=
    (checkPurpose_eq_ok_iff (u := ())).1 (by decide +kernel)
  have hleaf : Member sampleSetting sampleAuthority :=
    (checkMember_eq_ok_iff (u := ())).1 (by decide +kernel)
  have hroot : Member sampleSetting sampleRoot :=
    (checkMember_eq_ok_iff (u := ())).1 (by decide +kernel)
  have hissues : Issues sampleRoot sampleAuthority := by decide +kernel
  have hmay : MayIssue sampleRoot 0 := (checkIssuer_eq_ok_iff (u := ())).1 (by decide +kernel)
  have hself : ¬sampleAuthority.IsSelfIssued := by decide +kernel
  refine ⟨hpurpose, hleaf, hroot, hissues, hmay, hself, ?_⟩
  exact (verify_of_issued_by_anchor rfl (by decide) (.inr (by decide +kernel)) hpurpose hleaf hroot
    hissues hmay [sampleLeaf]).1 hself

/-- The key that takes over from the sample key. -/
def nextKey : Rsa.PublicKey where
  modulus :=
    0xda2dddade657c9d5ff977eabcaef3d402e788bfb57c8d79cd2b4277e5a677745 * 2 ^ 256 +
      0x9c717765ee1c6054394589611b333220ffe0c11712be128364b61b5aad2d1f47
  exponent := 65537

/-- A certificate for the next key of the authority "R", signed with the sample key. -/
def sampleRollover : Certificate :=
  let key := nextKey.toInfo
  let c := sampleCertificate .authority [5] [0x52] [0x52]
    0x7574cc7e5269c42609a582ec3b8e904d71b188a10038956ae2ce9fe936274318
    0x66e724fbe39d6e1366741c4d22d5a24d1d0b69f4fda8130767d14197b1736edb
  { c with
    tbs := { c.tbs with
      publicKey := key
      extensions :=
        some (Credential.newExtensions .authority key Rsa.sampleKey.publicKey.toInfo) } }

/-- Whoever trusts the certificate of the old key does not accept that of the next one, although the
old key signed it: it is taken for a root. -/
theorem verify_ne_of_rollover :
    let s : Setting := { sampleSetting with policy := {} }
    s.store = ⟨[sampleRoot]⟩ ∧ 2 ≤ s.policy.maxDepth ∧ s.policy.partialChain = true ∧
      AllowsPurpose sampleRollover s.policy.purpose ∧ Member s sampleRollover ∧
      Member s sampleRoot ∧ Issues sampleRoot sampleRollover ∧ MayIssue sampleRoot 0 ∧
      verify s sampleRollover [] = .error (.untrustedRoot (sampleName [0x52])) := by
  intro s
  have hpurpose : AllowsPurpose sampleRollover s.policy.purpose :=
    (checkPurpose_eq_ok_iff (u := ())).1 (by decide +kernel)
  have hleaf : Member s sampleRollover := (checkMember_eq_ok_iff (u := ())).1 (by decide +kernel)
  have hroot : Member s sampleRoot := (checkMember_eq_ok_iff (u := ())).1 (by decide +kernel)
  have hissues : Issues sampleRoot sampleRollover := by decide +kernel
  have hmay : MayIssue sampleRoot 0 := (checkIssuer_eq_ok_iff (u := ())).1 (by decide +kernel)
  exact ⟨rfl, by decide, rfl, hpurpose, hleaf, hroot, hissues, hmay, by decide +kernel⟩

end SignedFirmware.Trust.Chain
