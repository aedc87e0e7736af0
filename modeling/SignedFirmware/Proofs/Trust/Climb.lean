import SignedFirmware.Proofs.Blob.Chain
import SignedFirmware.Proofs.Trust.Walk

/-!
# Walks and climbs

Two loops follow issuers. A walk looks for trust: it wants names and signatures to fit, tries the
store first, and stops at an anchor. A climb only takes a blob apart: it goes by names, knows
nothing but the blob, and goes on as long as it can. If no two certificates of the blob have one
subject, a name leads to a single certificate of it, so that the climb follows an accepted walk for
as long as that stays inside the blob. With partial chains every certificate of the store is an
anchor, so that a walk leaves the blob with its last step at most.

The two keep different books: a walk remembers the certificates that it has come by, and a climb has
a pool of the others. That the pool has at least all certificates of the blob that the walk has not
come by is the invariant that holds them together.
-/

namespace SignedFirmware.Trust.Chain

open Blob (Climbs)
open Cms (SignedData SignerInfo)
open X509 (Certificate)

variable {s : Setting} {embedded before pool path above rest : List Certificate}
  {cert issuer : Certificate}

/-- The pool of a climb has only certificates of a blob, and all those that a walk has not come
by. -/
structure Unclimbed (embedded before pool : List Certificate) : Prop where
  subset : ∀ c ∈ pool, c ∈ embedded
  unused : ∀ c ∈ embedded, c ∉ before → c ∈ pool

theorem Unclimbed.erase (h : Unclimbed embedded before pool) (issuer : Certificate) :
    Unclimbed embedded (before ++ [issuer]) (pool.erase issuer) where
  subset c hc := h.subset c (List.mem_of_mem_erase hc)
  unused c hc hnew := by
    rw [List.mem_append, List.mem_singleton, not_or] at hnew
    exact (List.mem_erase_of_ne hnew.2).2 (h.unused c hc hnew.1)

/-- A climb goes on to the issuer that a walk found, if that is in the blob. -/
theorem Unclimbed.find?_eq_some (h : Unclimbed embedded before pool)
    (hsubjects : (embedded.map Certificate.subject).Nodup) (hissuer : issuer ∈ embedded)
    (hnew : issuer ∉ before) (hnamed : issuer.subject = cert.issuer) :
    pool.find? (Blob.issues cert) = some issuer := by
  refine find?_eq_some_of_unique (h.unused issuer hissuer hnew) (decide_eq_true hnamed) ?_
  intro c hc hname
  have hsame : c.subject = issuer.subject := (of_decide_eq_true hname).trans hnamed.symm
  exact List.inj_on_of_nodup_map hsubjects (h.subset c hc) hissuer hsame

theorem Onward.new_and_named {pool : List Certificate} (h : Onward s pool before cert issuer) :
    issuer ∈ pool ∧ issuer ∉ before ++ [cert] ∧ issuer.subject = cert.issuer := by
  have hfound := h.found
  rw [issuer_searchIssuer] at hfound
  have hfits := List.find?_some hfound
  obtain ⟨hnew, hissues⟩ := of_decide_eq_true hfits
  exact ⟨List.mem_of_find?_eq_some hfound, hnew, hissues.named⟩

/-- The certificates of a walk are the first ones of a climb, perhaps without the anchor at the
end. -/
structure Follows (embedded path chained : List Certificate) : Prop where
  dropLast : path.dropLast <+: chained
  whole : ∀ anchor, path.getLast? = some anchor → anchor ∈ embedded → path <+: chained

theorem Follows.cons {second : Certificate} (h : Follows embedded (second :: path) above) :
    Follows embedded (cert :: second :: path) (cert :: above) where
  dropLast := by
    rw [List.dropLast_cons_cons]
    exact List.cons_prefix_cons.2 ⟨rfl, h.dropLast⟩
  whole anchor hanchor hmem := by
    rw [List.getLast?_cons_cons] at hanchor
    exact List.cons_prefix_cons.2 ⟨rfl, h.whole anchor hanchor hmem⟩

theorem follows_of_takes (hpartial : s.policy.partialChain = true)
    (hsubjects : (embedded.map Certificate.subject).Nodup)
    (hpool : Unclimbed embedded (before ++ [cert]) pool)
    (hwalk : Takes s (s.store.certs ++ embedded) before cert path)
    (hclimb : Climbs cert pool above rest) : Follows embedded path (cert :: above) := by
  induction hwalk generalizing pool above with
  | @stop before cert _ _ =>
    exact ⟨List.nil_prefix, fun _ _ _ ↦ List.cons_prefix_cons.2 ⟨rfl, List.nil_prefix⟩⟩
  | @step before more cert issuer _ _ honward hmore ih =>
    obtain ⟨hmem, hnew, hnamed⟩ := honward.new_and_named
    by_cases hissuer : issuer ∈ embedded
    · -- the climb goes the same way
      have hfound := hpool.find?_eq_some hsubjects hissuer hnew hnamed
      cases hclimb with
      | top hself => exact absurd hself honward.notSelfIssued
      | alone _ hnone =>
        rw [hfound] at hnone
        cases hnone
      | step _ hfound' hrest =>
        obtain rfl := Option.some.inj (hfound.symm.trans hfound')
        have hfollows := ih (hpool.erase issuer) hrest
        cases hmore with
        | stop => exact hfollows.cons
        | step => exact hfollows.cons
    · -- the issuer is from the store, so it is an anchor and the walk stops there
      have hstore : issuer ∈ s.store.certs := (List.mem_append.1 hmem).resolve_right hissuer
      have hanchor : Anchor s issuer := ⟨hstore, .inl hpartial⟩
      cases hmore with
      | stop =>
        refine ⟨List.cons_prefix_cons.2 ⟨rfl, List.nil_prefix⟩, fun anchor hlast hmem ↦ ?_⟩
        obtain rfl : issuer = anchor := Option.some.inj hlast
        exact absurd hmem hissuer
      | step _ hnone => exact absurd hanchor hnone

/-! ## The chain of a blob -/

/-- **Both follow the same chain.** Take a blob with a single signer, in which no two certificates
have one subject, and any policy that accepts partial chains. If the certificate of the signer has
an accepted chain, the chain that is taken out of the blob begins with it. Only its last certificate
may be missing there, and that only if the blob does not have it. -/
theorem extracted_of_verify {data : Bytes} {d : SignedData} {signer : SignerInfo}
    {cert : Certificate} {s : Setting} {path : List Certificate} (hread : Blob.read data = .ok d)
    (hsigner : d.signers = [signer]) (hcert : certificateOf? d signer = some cert)
    (hsubjects : (d.standardCertificates.map Certificate.subject).Nodup)
    (hpartial : s.policy.partialChain = true)
    (hverify : verify s cert d.standardCertificates = .ok path) :
    ∃ c lists, Blob.chainOf d = .ok c ∧ Blob.chain data = .ok lists ∧
      lists.chained.map CertList.records = some (c.chained.map Certificate.encode) ∧
      path.dropLast <+: c.chained ∧
      ∀ anchor, path.getLast? = some anchor → anchor ∈ d.standardCertificates →
        path <+: c.chained := by
  obtain ⟨-, hwalk⟩ := verify_eq_ok_iff_takes.1 hverify
  have hclimb := Blob.climbs_climb cert (d.standardCertificates.erase cert)
  have hpool : Unclimbed d.standardCertificates ([] ++ [cert])
      (d.standardCertificates.erase cert) :=
    Unclimbed.erase ⟨fun _ ↦ id, fun _ h _ ↦ h⟩ cert
  have hchain := Blob.chainOf_eq_ok_iff.2 ⟨signer, cert, _, _, hsigner, hcert, hclimb, rfl⟩
  have hfollows := follows_of_takes hpartial hsubjects hpool hwalk hclimb
  refine ⟨_, _, hchain, Blob.chain_eq_ok_iff.2 ⟨d, _, hread, hchain, rfl⟩, ?_, hfollows.dropLast,
    hfollows.whole⟩
  have hshort := Blob.short_of_chainOf hread hchain (List.sublist_append_left _ _)
  have hne : cert :: (Blob.climb cert (d.standardCertificates.erase cert)).1 ≠ [] :=
    List.cons_ne_nil _ _
  dsimp only
  rw [if_neg hne, Option.map_some, CertList.records_ofRecords hshort]

/-- The leaf of the chain of three as a signer. -/
def sampleSigner : SignerInfo where
  version := 1
  id := .issuerAndSerial (sampleName [0x41]) [3]
  digestAlgorithm := Credential.signingAlgorithm
  signedAttributes := none
  signatureAlgorithm := Credential.signingAlgorithm
  signature := []
  unsignedAttributes := none

/-- Signed data of this signer, with the whole chain inside. -/
def sampleSigned : SignedData :=
  { Blob.sampleData with
    certificates := some
      [.certificate sampleRoot, .certificate sampleLeaf, .certificate sampleAuthority]
    signers := [sampleSigner] }

/-- The sample policy, but with partial chains. -/
def partialSetting : Setting :=
  { sampleSetting with policy := { sampleSetting.policy with partialChain := true } }

/-- The chain of three is taken out as it was accepted. -/
theorem extracted_of_verify_three :
    verify partialSetting sampleLeaf sampleSigned.standardCertificates =
        .ok [sampleLeaf, sampleAuthority, sampleRoot] ∧
      ∃ c lists, Blob.chainOf sampleSigned = .ok c ∧ Blob.chain sampleSigned.encode = .ok lists ∧
        lists.chained.map CertList.records = some (c.chained.map Certificate.encode) ∧
        [sampleLeaf, sampleAuthority, sampleRoot] <+: c.chained := by
  have hread : Blob.read sampleSigned.encode = .ok sampleSigned := by decide +kernel
  have hcert : certificateOf? sampleSigned sampleSigner = some sampleLeaf := by decide +kernel
  have hsubjects : (sampleSigned.standardCertificates.map Certificate.subject).Nodup := by
    decide +kernel
  have hverify : verify partialSetting sampleLeaf sampleSigned.standardCertificates =
      .ok [sampleLeaf, sampleAuthority, sampleRoot] := by decide +kernel
  obtain ⟨c, lists, hchain, hlists, hrecords, -, hwhole⟩ :=
    extracted_of_verify hread rfl hcert hsubjects rfl hverify
  exact ⟨hverify, c, lists, hchain, hlists, hrecords,
    hwhole sampleRoot rfl (by decide +kernel)⟩

end SignedFirmware.Trust.Chain
