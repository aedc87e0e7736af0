import SignedFirmware.Proofs.Trust.Climb
import SignedFirmware.Proofs.Trust.Content

/-!
# Tampered content

Content enters a verification only through its digests, one for each signer. If signed data was
accepted over some content, then over any other content each signer is either as good as before, as
the two contents have one digest, or is refused. Which failure this is depends on what they signed:
a signer of attributes signed the digest of the old content, and for a signer of the content itself
the signature is that of another digest (`verifySigner_eq_mismatch`).

Signers are checked in order, so the failure names the first one whose digest differs. The ones
before pass again, and neither certificates nor chains look at the content.
-/

namespace SignedFirmware.Trust

open X509 (Certificate)
open Blob (Error)
open Cms (SignedData SignerInfo)

variable {s : Chain.Setting} {d : SignedData} {signer : SignerInfo} {cert : Certificate}
  {content content' : Bytes}

/-- Two contents have different digests under the algorithm of a signer. -/
def DigestDiffers (signer : SignerInfo) (content content' : Bytes) : Prop :=
  ∃ a ∈ Digest.Algorithm.ofOid? signer.digestAlgorithm.oid, a.hash content ≠ a.hash content'

instance (signer : SignerInfo) (content content' : Bytes) :
    Decidable (DigestDiffers signer content content') := by
  unfold DigestDiffers
  infer_instance

/-- What is wrong about a signer, at the given position, who signed another content. -/
def mismatch (position : Nat) (signer : SignerInfo) : Error :=
  match signer.signedAttributes with
  | some _ => .messageDigestMismatch position
  | none => .signatureInvalid position .verify

theorem toClass_mismatch (position : Nat) (signer : SignerInfo) :
    (mismatch position signer).toClass = .rejected := by
  rw [mismatch]
  cases signer.signedAttributes <;> rfl

/-! ## One signer -/

theorem Signs.of_same_digest (h : Signs signer cert content)
    (hsame : ¬DigestDiffers signer content content') : Signs signer cert content' := by
  obtain ⟨a, ha, hscheme, hsigns⟩ := signs_iff.1 h
  have hhash : a.hash content = a.hash content' := by
    by_contra hne
    exact hsame ⟨a, ha, hne⟩
  rw [hhash] at hsigns
  exact signs_iff.2 ⟨a, ha, hscheme, hsigns⟩

theorem signedDigest_eq_mismatch {a : Digest.Algorithm} {attributes : List Cms.Attribute}
    {digest : Bytes} (position : Nat) (hattributes : signer.signedAttributes = some attributes)
    (hgives : GivesDigest attributes digest) (hne : digest ≠ a.hash content') :
    signedDigest position signer a content' = .error (.messageDigestMismatch position) := by
  obtain ⟨value, hvalue, hoctets⟩ := givesDigest_iff.1 hgives
  simp only [signedDigest, hattributes, hvalue, hoctets]
  rw [if_neg hne]
  rfl

theorem verifySigner_eq_mismatch (position : Nat) (h : Signs signer cert content)
    (hdiffers : DigestDiffers signer content content') :
    verifySigner position signer cert content' = .error (mismatch position signer) := by
  obtain ⟨a, ha, hscheme, hsigns⟩ := signs_iff.1 h
  obtain ⟨b, hb, hne⟩ := hdiffers
  obtain rfl : a = b := Option.some.inj (ha.symm.trans hb)
  have hdigest : signerDigest signer = .ok a := signerDigest_eq_ok_iff.2 ⟨ha, hscheme⟩
  rw [verifySigner, hdigest, mismatch]
  cases hattributes : signer.signedAttributes with
  | none =>
    rw [hattributes] at hsigns
    have hsigned : signedDigest position signer a content' = .ok (a.hash content') := by
      simp [signedDigest, hattributes, pure, Except.pure]
    change (signedDigest position signer a content' >>= _) = _
    rw [hsigned]
    -- the signature that held is over the old digest, and none is over two
    exact checkKey_eq_error (.signatureInvalid position) hsigns hne
  | some attributes =>
    rw [hattributes] at hsigns
    obtain ⟨hgives, -⟩ := hsigns
    change (signedDigest position signer a content' >>= _) = _
    rw [signedDigest_eq_mismatch position hattributes hgives hne]
    rfl

/-! ## All signers -/

/-- The first signer whose digest differs is the one that is refused. -/
theorem verify_eq_mismatch (h : verify s d content = .ok ()) {i : Nat} (hi : i < d.signers.length)
    (hdiffers : DigestDiffers d.signers[i] content content')
    (hfirst : ∀ j (hj : j < i), ¬DigestDiffers d.signers[j] content content') :
    verify s d content' = .error (mismatch i d.signers[i]) := by
  obtain ⟨certs, hcerts, hchains, hsigns⟩ := verify_eq_ok_iff_exists_certs.1 h
  have hlength : certs.length = d.signers.length :=
    (signerCertificates_eq_ok_iff.1 hcerts).2.length_eq.symm
  have hsigner : ∀ j (hj : j < d.signers.length), Signs d.signers[j] certs[j] content := by
    intro j hj
    have hzip : j < (d.signers.zip certs).length := by
      rw [List.length_zip, hlength, Nat.min_self]
      exact hj
    have hpair := hsigns _ (List.getElem_mem hzip)
    rwa [List.getElem_zip] at hpair
  -- certificates and chains pass whatever the content is, so the signers alone decide
  rw [verify_eq_checkSigners hcerts hchains, Checked.forM_eq_error_iff]
  have hpairs : (withCertificates d certs).length = d.signers.length := by
    rw [withCertificates, List.length_zipIdx, List.length_zip, hlength, Nat.min_self]
  refine ⟨i, hpairs.symm ▸ hi, ?_, ?_⟩
  · intro j hj
    simp only [withCertificates, List.getElem_zipIdx, List.getElem_zip, Nat.zero_add]
    exact verifySigner_eq_ok_iff.2 ((hsigner j (hj.trans hi)).of_same_digest (hfirst j hj))
  · simp only [withCertificates, List.getElem_zipIdx, List.getElem_zip, Nat.zero_add]
    exact verifySigner_eq_mismatch i (hsigner i hi) hdiffers

/-- **Tampered content is refused.** Take signed data that is accepted over some content, and
another content with a different digest under the algorithm of some signer. Over this content the
data is refused, and the failure is that of the first such signer: the digest in the signed
attributes is not that of the content, or the signature is not that of the digest. -/
theorem refused_of_tampered (h : verify s d content = .ok ())
    (htampered : ∃ signer ∈ d.signers, DigestDiffers signer content content') :
    ∃ i, ∃ hi : i < d.signers.length,
      DigestDiffers d.signers[i] content content' ∧
        (∀ j (hj : j < i), ¬DigestDiffers d.signers[j] content content') ∧
          ∃ e, verify s d content' = .error e ∧ e.toClass = .rejected ∧
            match d.signers[i].signedAttributes with
            | some _ => e = .messageDigestMismatch i
            | none => e = .signatureInvalid i .verify := by
  let differs : SignerInfo → Bool := fun signer ↦ decide (DigestDiffers signer content content')
  have hi : d.signers.findIdx differs < d.signers.length := by
    obtain ⟨signer, hsigner, hdiffers⟩ := htampered
    exact List.findIdx_lt_length_of_exists ⟨signer, hsigner, decide_eq_true hdiffers⟩
  have hdiffers : DigestDiffers d.signers[d.signers.findIdx differs] content content' :=
    of_decide_eq_true (List.findIdx_getElem (w := hi))
  have hfirst : ∀ j (hj : j < d.signers.findIdx differs),
      ¬DigestDiffers d.signers[j] content content' := by
    intro j hj
    exact of_decide_eq_false (List.not_of_lt_findIdx hj)
  refine ⟨_, hi, hdiffers, hfirst, _, verify_eq_mismatch h hi hdiffers hfirst,
    toClass_mismatch _ _, ?_⟩
  rw [mismatch]
  cases d.signers[d.signers.findIdx differs].signedAttributes <;> rfl

/-- A content of two blocks. -/
def sampleContent : Bytes :=
  Bytes.ofNatBE 32 0xd131dd02c5e6eec4693d9a0698aff95c2fcab58712467eab4004583eb8fb7f89 ++
    Bytes.ofNatBE 32 0x55ad340609f4b30283e488832571415a085125e8f7cdc99fd91dbdf280373c5b ++
    Bytes.ofNatBE 32 0xd8823e3156348f5bae6dacd436c919c6dd53e2b487da03fd02396306d248cda0 ++
    Bytes.ofNatBE 32 0xe99f33420f577ee8ce54b67080a80d1ec69821bcb6a8839396f9652b6ff72a70

/-- Another content, which MD5 does not tell from the first: the top bits of six bytes are flipped.
-/
def sampleTwin : Bytes :=
  [19, 45, 59, 83, 109, 123].foldl (fun bytes i ↦ bytes.modify i (· ^^^ 0x80)) sampleContent

/-- A signer of the first content under MD5, with the sample key. -/
def sampleOldSigner : SignerInfo :=
  { sampleSigner with
    digestAlgorithm := ⟨Digest.Algorithm.md5.oid, none⟩
    signedAttributes := none
    signatureAlgorithm := ⟨Digest.Algorithm.md5.rsaOid, none⟩
    signature :=
      Bytes.ofNatBE 32 0x98f0dc751566f12b29f388946a8889b9237bd294192824f53e27781c3b296b20 ++
        Bytes.ofNatBE 32 0xbd18cccff589e2a57db5b5ac0fac8cba6dc58c00c2aa5ad6f217c62e7ca6e89e }

/-- A signer of attributes for the first content under SHA-256, with the sample key. -/
def sampleNewSigner : SignerInfo :=
  { sampleSigner with
    signedAttributes := some
      [⟨Cms.Attribute.contentType, [Der.ofOid Cms.EncapsulatedContent.data]⟩,
        ⟨Cms.Attribute.messageDigest,
          [Der.ofOctets (Digest.Algorithm.sha256.hash sampleContent)]⟩]
    signature :=
      Bytes.ofNatBE 32 0x27d6af1c71578642f01b998bbcb699428e2a090602fc0aab3b216568cdfeb739 ++
        Bytes.ofNatBE 32 0x36fbf5274f2eb226f4f84e86179a131a161d8a9ee11535c15dbe7a3bbe9a7643 }

/-- The chain of three with both signers. -/
def sampleCosigned : SignedData :=
  { Chain.sampleSigned with signers := [sampleOldSigner, sampleNewSigner] }

/-- The first signer passes for the twin, so it is the second one who is refused. -/
theorem refused_of_tampered_twin :
    verify Chain.sampleSetting sampleCosigned sampleContent = .ok () ∧
      (∃ signer ∈ sampleCosigned.signers, DigestDiffers signer sampleContent sampleTwin) ∧
        ¬DigestDiffers sampleOldSigner sampleContent sampleTwin ∧
          verify Chain.sampleSetting sampleCosigned sampleTwin =
            .error (.messageDigestMismatch 1) := by
  have hverify : verify Chain.sampleSetting sampleCosigned sampleContent = .ok () := by
    decide +kernel
  have hold : ¬DigestDiffers sampleOldSigner sampleContent sampleTwin := by decide +kernel
  have hnew : DigestDiffers sampleNewSigner sampleContent sampleTwin := by decide +kernel
  have htampered : ∃ signer ∈ sampleCosigned.signers,
      DigestDiffers signer sampleContent sampleTwin :=
    ⟨sampleNewSigner, List.mem_cons_of_mem _ List.mem_cons_self, hnew⟩
  obtain ⟨i, hi, hdiffers, -, e, he, -, hkind⟩ := refused_of_tampered hverify htampered
  obtain rfl : i = 1 := by
    match i, hi with
    | 0, _ => exact absurd hdiffers hold
    | 1, _ => rfl
  obtain rfl : e = .messageDigestMismatch 1 := hkind
  exact ⟨hverify, htampered, hold, he⟩

end SignedFirmware.Trust
