import SignedFirmware.Proofs.Trust.Climb
import SignedFirmware.Proofs.Trust.Content

/-!
# What nobody vouches for

A signature covers the content or the signed attributes, and nothing else of what it travels with.
Whoever carries signed data may rewrite its version, the list of digests, the content that is
embedded, the revocation lists, the certificates in other forms, and of each signer the version, the
parameters of the algorithms and the unsigned attributes. None of these has any influence on a
verification, be it on what is accepted or on what is said about a failure (`verify_eq_of_alike`).
In particular the content that was verified is that of the caller and not the embedded one.

Identifiers of algorithms are read, but only for what they stand for: two identifiers of one digest
are as good as one, and so are all identifiers of known signature schemes.
-/

namespace SignedFirmware.Trust

open X509 (Certificate)
open Cms (SignedData SignerInfo)

variable {s : Chain.Setting} {d d' : SignedData} {signer signer' : SignerInfo}

/-- Two signers agree in all that a verification reads of them. -/
structure Alike (signer signer' : SignerInfo) : Prop where
  id : signer.id = signer'.id
  signedAttributes : signer.signedAttributes = signer'.signedAttributes
  signature : signer.signature = signer'.signature
  /-- They use one digest, though they may call it by different identifiers. -/
  digest : ∃ a, Digest.Algorithm.ofOid? signer.digestAlgorithm.oid = some a ∧
    Digest.Algorithm.ofOid? signer'.digestAlgorithm.oid = some a
  /-- Their signature schemes are known, though they may be different ones. -/
  scheme : (SignatureScheme.ofOid? signer.signatureAlgorithm.oid).isSome = true ∧
    (SignatureScheme.ofOid? signer'.signatureAlgorithm.oid).isSome = true

/-! ## Passes -/

theorem signerCertificate_congr (hcerts : d.standardCertificates = d'.standardCertificates)
    (hid : signer.id = signer'.id) (position : Nat) :
    d.signerCertificate position signer = d'.signerCertificate position signer' := by
  rw [SignedData.signerCertificate, SignedData.signerCertificate, hcerts, hid]

theorem signerCertificates_congr (hcerts : d.standardCertificates = d'.standardCertificates)
    (hsigners : List.Forall₂ Alike d.signers d'.signers) :
    d.signerCertificates = d'.signerCertificates := by
  have hnil : d.signers = [] ↔ d'.signers = [] := by
    rw [← List.length_eq_zero_iff, ← List.length_eq_zero_iff, hsigners.length_eq]
  rw [SignedData.signerCertificates, SignedData.signerCertificates]
  refine ite_congr (propext hnil) (fun _ ↦ rfl) fun _ ↦ ?_
  refine Checked.mapM_congr ((forall₂_zipIdx hsigners 0).imp ?_)
  rintro ⟨signer, position⟩ ⟨signer', _⟩ ⟨halike, rfl⟩
  exact signerCertificate_congr hcerts halike.id position

theorem signedDigest_congr (hattributes : signer.signedAttributes = signer'.signedAttributes)
    (position : Nat) (a : Digest.Algorithm) (content : Bytes) :
    signedDigest position signer a content = signedDigest position signer' a content := by
  rw [signedDigest, signedDigest, hattributes]

theorem verifySigner_congr (h : Alike signer signer') (position : Nat) (cert : Certificate)
    (content : Bytes) :
    verifySigner position signer cert content = verifySigner position signer' cert content := by
  obtain ⟨a, ha, ha'⟩ := h.digest
  have hdigest : signerDigest signer = .ok a :=
    signerDigest_eq_ok_iff.2 ⟨ha, SignatureScheme.isSome_ofOid?_iff.1 h.scheme.1⟩
  have hdigest' : signerDigest signer' = .ok a :=
    signerDigest_eq_ok_iff.2 ⟨ha', SignatureScheme.isSome_ofOid?_iff.1 h.scheme.2⟩
  -- behind this step no identifier of an algorithm is left
  rw [verifySigner, verifySigner, hdigest, hdigest', h.signature]
  refine bind_congr fun b ↦ ?_
  rw [signedDigest_congr h.signedAttributes]

theorem checkSigners_congr (hsigners : List.Forall₂ Alike d.signers d'.signers)
    (certs : List Certificate) (content : Bytes) :
    ((withCertificates d certs).forM fun ((signer, cert), position) ↦
        verifySigner position signer cert content) =
      (withCertificates d' certs).forM fun ((signer, cert), position) ↦
        verifySigner position signer cert content := by
  refine Checked.forM_congr ((forall₂_zipIdx (forall₂_zip hsigners certs) 0).imp ?_)
  rintro ⟨⟨signer, cert⟩, position⟩ ⟨⟨signer', _⟩, _⟩ ⟨⟨halike, rfl⟩, rfl⟩
  exact verifySigner_congr halike position cert content

/-! ## Signed data -/

/-- **What nobody vouches for has no influence.** Take two pieces of signed data with the same
certificates in standard form and with signers who agree one by one in how they name their
certificates, in the signed attributes and in the signatures, and who use the same digests and known
signature schemes. Whatever else is in them, both are accepted over the same contents, and where
they are refused it is for the same reason. -/
theorem verify_eq_of_alike (s : Chain.Setting)
    (hcerts : d.standardCertificates = d'.standardCertificates)
    (hsigners : List.Forall₂ Alike d.signers d'.signers) (content : Bytes) :
    verify s d content = verify s d' content := by
  rw [verify, verify, signerCertificates_congr hcerts hsigners, hcerts]
  refine bind_congr fun certs ↦ bind_congr fun _ ↦ ?_
  exact checkSigners_congr hsigners certs content

/-- A signer of attributes for the content "fw" under SHA-1, with the sample key. -/
def samplePlainSigner : SignerInfo :=
  { sampleSigner with
    digestAlgorithm := ⟨Digest.Algorithm.sha1.oid, none⟩
    signedAttributes := some
      [⟨Cms.Attribute.contentType, [Der.ofOid Cms.EncapsulatedContent.data]⟩,
        ⟨Cms.Attribute.messageDigest, [Der.ofOctets (Digest.Algorithm.sha1.hash [0x66, 0x77])]⟩]
    signatureAlgorithm := ⟨Digest.Algorithm.sha1.rsaOid, none⟩
    signature :=
      Bytes.ofNatBE 32 0x6f3457c05dd92fda2c93718fe00d31e9dc4c5db644979ddf133e76c5f0e159b1 ++
        Bytes.ofNatBE 32 0x9cce02b0f24e5204e6f39088551b2599a834277c8f086bf352e48d43e2c98c4e }

/-- The same signer with all that nobody vouches for rewritten. The digest goes under its other
identifier. -/
def sampleRewrittenSigner : SignerInfo :=
  { samplePlainSigner with
    version := 3
    digestAlgorithm := .withNull Digest.Algorithm.sha1.rsaOid
    signatureAlgorithm := .withNull SignatureScheme.rsaEncryption
    unsignedAttributes := some [⟨Cms.Attribute.contentType, []⟩] }

/-- The chain of three with that signer. -/
def samplePlain : SignedData := { Chain.sampleSigned with signers := [samplePlainSigner] }

/-- The same signed data with all that nobody vouches for rewritten. The content that is embedded is
another one. -/
def sampleRewritten : SignedData where
  version := 5
  digestAlgorithms := [.withNull Digest.Algorithm.md5.oid]
  content := ⟨Cms.ContentInfo.signedData, some (Der.ofOctets [0x66, 0x78])⟩
  certificates := some
    [.certificate Chain.sampleRoot, .certificate Chain.sampleLeaf,
      .certificate Chain.sampleAuthority,
      .other ⟨Cms.EncapsulatedContent.data, Der.ofOctets []⟩]
  revocations := some [.other ⟨.withNull Digest.Algorithm.md5.oid, Der.ofOctets []⟩]
  signers := [sampleRewrittenSigner]

/-- Both are accepted over the content that the signer signed. -/
theorem verify_eq_of_alike_rewritten :
    samplePlain.standardCertificates = sampleRewritten.standardCertificates ∧
      Alike samplePlainSigner sampleRewrittenSigner ∧
        verify Chain.sampleSetting samplePlain [0x66, 0x77] = .ok () ∧
          verify Chain.sampleSetting sampleRewritten [0x66, 0x77] = .ok () := by
  have halike : Alike samplePlainSigner sampleRewrittenSigner :=
    ⟨rfl, rfl, rfl, ⟨.sha1, by decide, by decide⟩, ⟨by decide, by decide⟩⟩
  have hcerts : samplePlain.standardCertificates = sampleRewritten.standardCertificates := rfl
  have hsigners : List.Forall₂ Alike samplePlain.signers sampleRewritten.signers :=
    .cons halike .nil
  have hplain : verify Chain.sampleSetting samplePlain [0x66, 0x77] = .ok () := by
    decide +kernel
  have hsame := verify_eq_of_alike Chain.sampleSetting hcerts hsigners [0x66, 0x77]
  exact ⟨hcerts, halike, hplain, hsame.symm.trans hplain⟩

end SignedFirmware.Trust
