import SignedFirmware.Blob.Draft
import SignedFirmware.Proofs.Blob.Read
import SignedFirmware.Proofs.Cms.SignedData
import SignedFirmware.Proofs.Trust.Chain
import SignedFirmware.Proofs.Trust.Verify

/-!
# What a signature vouches for

One signature of one key is good for one digest (`KeyVerifies.hash_eq`), so two signers who show the
same signature signed the same message. If both signed attributes, these are the same and give the
digest of one content; if neither did, the message is the content.

The signature does not say which of the two was meant. If the attributes are dropped, their encoding
is left as the message, and it passes for a content that the same signature vouches for
(`sampleStripped`). Nothing else does (`content_of_same_signature`).
-/

namespace SignedFirmware.Trust

open X509 (Certificate)
open Cms (SignerInfo)

variable {signer signer' : SignerInfo} {cert : Certificate} {a : Digest.Algorithm}
  {content content' message : Bytes}

/-! ## Messages -/

/-- The message that the signature of a signer is made over: the content, or the signed
attributes. -/
def signedMessage (signer : SignerInfo) (content : Bytes) : Bytes :=
  match signer.signedAttributes with
  | none => content
  | some attributes => (Cms.Attribute.setElement attributes).encode

theorem Covers.eq_signedMessage (h : Covers signer a content message) :
    message = signedMessage signer content := by
  rw [Covers] at h
  rw [signedMessage]
  cases hattributes : signer.signedAttributes with
  | none => simpa [hattributes] using h
  | some attributes =>
    simp only [hattributes] at h
    exact h.2.2

theorem GivesDigest.unique {attributes : List Cms.Attribute} {digest digest' : Bytes}
    (h : GivesDigest attributes digest) (h' : GivesDigest attributes digest') :
    digest = digest' := by
  obtain ⟨value, hvalue, hoctets⟩ := givesDigest_iff.1 h
  obtain ⟨value', hvalue', hoctets'⟩ := givesDigest_iff.1 h'
  obtain rfl : value = value' := Option.some.inj (hvalue.symm.trans hvalue')
  exact Option.some.inj (hoctets.symm.trans hoctets')

/-- Two signers with one key and one signature have messages of one digest. -/
theorem hash_signedMessage_eq
    (ha : Digest.Algorithm.ofOid? signer.digestAlgorithm.oid = some a)
    (ha' : Digest.Algorithm.ofOid? signer'.digestAlgorithm.oid = some a)
    (hsignature : signer.signature = signer'.signature) (h : Signs signer cert content)
    (h' : Signs signer' cert content') :
    Covers signer a content (signedMessage signer content) ∧
      Covers signer' a content' (signedMessage signer' content') ∧
        a.hash (signedMessage signer content) = a.hash (signedMessage signer' content') := by
  obtain ⟨b, hb, message, hcovers, hverifies⟩ := h
  obtain ⟨b', hb', message', hcovers', hverifies'⟩ := h'
  obtain rfl : a = b := Option.some.inj (ha.symm.trans (signerDigest_eq_ok_iff.1 hb).1)
  obtain rfl : a = b' := Option.some.inj (ha'.symm.trans (signerDigest_eq_ok_iff.1 hb').1)
  rw [← hsignature] at hverifies'
  obtain rfl := hcovers.eq_signedMessage
  obtain rfl := hcovers'.eq_signedMessage
  exact ⟨hcovers, hcovers', hverifies.hash_eq hverifies'⟩

/-! ## Contents -/

/-- **What a signature vouches for.** Two signers with the same certificate, digest and signature
are accepted over contents of one digest, if both have signed attributes or neither has. If one
alone has them, they give the digest of its content, and their encoding is the content of the other.
The digest must not collide on the two messages that were signed. -/
theorem content_of_same_signature {position position' : Nat}
    (ha : Digest.Algorithm.ofOid? signer.digestAlgorithm.oid = some a)
    (ha' : Digest.Algorithm.ofOid? signer'.digestAlgorithm.oid = some a)
    (hsignature : signer.signature = signer'.signature)
    (hcollision : a.hash (signedMessage signer content) = a.hash (signedMessage signer' content') →
      signedMessage signer content = signedMessage signer' content')
    (h : verifySigner position signer cert content = .ok ())
    (h' : verifySigner position' signer' cert content' = .ok ()) :
    match signer.signedAttributes, signer'.signedAttributes with
    | none, none => a.hash content = a.hash content'
    | some _, some _ => a.hash content = a.hash content'
    | some attributes, none =>
      GivesDigest attributes (a.hash content) ∧
        content' = (Cms.Attribute.setElement attributes).encode
    | none, some attributes =>
      GivesDigest attributes (a.hash content') ∧
        content = (Cms.Attribute.setElement attributes).encode := by
  obtain ⟨hcovers, hcovers', hhash⟩ := hash_signedMessage_eq ha ha' hsignature
    (verifySigner_eq_ok_iff.1 h) (verifySigner_eq_ok_iff.1 h')
  have hmessage := hcollision hhash
  simp only [Covers, signedMessage] at hcovers hcovers' hhash hmessage
  cases hattributes : signer.signedAttributes with
  | none =>
    cases hattributes' : signer'.signedAttributes with
    | none =>
      simp only [hattributes, hattributes'] at hhash ⊢
      exact hhash
    | some attributes' =>
      simp only [hattributes, hattributes'] at hcovers' hmessage ⊢
      exact ⟨hcovers'.1, hmessage⟩
  | some attributes =>
    cases hattributes' : signer'.signedAttributes with
    | none =>
      simp only [hattributes, hattributes'] at hcovers hmessage ⊢
      exact ⟨hcovers.1, hmessage.symm⟩
    | some attributes' =>
      simp only [hattributes, hattributes'] at hcovers hcovers' hmessage ⊢
      -- one message is one set of attributes, and that gives one digest
      obtain rfl : attributes = attributes' := Cms.Attribute.setElement_encode_inj
        hcovers.2.1 hmessage
      exact hcovers.1.unique hcovers'.1

/-- Attributes that give the digest of the content "fw". -/
def sampleAttributes : List Cms.Attribute :=
  [⟨Cms.Attribute.contentType, [Der.ofOid Cms.EncapsulatedContent.data]⟩,
    ⟨Cms.Attribute.messageDigest, [Der.ofOctets (Digest.Algorithm.sha256.hash [0x66, 0x77])]⟩]

/-- A signer of these attributes with the sample key. -/
def sampleSigner : SignerInfo where
  version := 1
  id := .issuerAndSerial (Chain.sampleName [0x41]) [3]
  digestAlgorithm := ⟨Digest.Algorithm.sha256.oid, none⟩
  signedAttributes := some sampleAttributes
  signatureAlgorithm := ⟨Digest.Algorithm.sha256.rsaOid, none⟩
  signature :=
    Bytes.ofNatBE 32 0xc9bc88d1bdd5fa2be56e70fa6897b93a6c9e883615395a74964d870ee0f518ab ++
      Bytes.ofNatBE 32 0x4bb9decae67aa64edf61934617983333e66c13b5d2e0889e1f84745424ea261a
  unsignedAttributes := none

/-- The same signature without the attributes. -/
def sampleStripped : SignerInfo := { sampleSigner with signedAttributes := none }

/-- The content that is left for it. -/
def sampleStrippedContent : Bytes := (Cms.Attribute.setElement sampleAttributes).encode

theorem verifySigner_sampleSigner :
    verifySigner 0 sampleSigner Chain.sampleLeaf [0x66, 0x77] = .ok () := by
  decide +kernel

theorem verifySigner_sampleStripped :
    verifySigner 0 sampleStripped Chain.sampleLeaf sampleStrippedContent = .ok () := by
  decide +kernel

/-- The signature vouches for "fw" with its attributes, and for nothing but these without them. -/
theorem content_of_same_signature_stripped :
    verifySigner 0 sampleSigner Chain.sampleLeaf [0x66, 0x77] = .ok () ∧
      GivesDigest sampleAttributes (Digest.Algorithm.sha256.hash [0x66, 0x77]) ∧
        verifySigner 0 sampleStripped Chain.sampleLeaf sampleStrippedContent = .ok () ∧
          sampleStrippedContent = (Cms.Attribute.setElement sampleAttributes).encode := by
  have hdigest : Digest.Algorithm.ofOid? sampleSigner.digestAlgorithm.oid = some .sha256 := by
    decide
  have hdigest' : Digest.Algorithm.ofOid? sampleStripped.digestAlgorithm.oid = some .sha256 :=
    hdigest
  have hsignature : sampleSigner.signature = sampleStripped.signature := rfl
  have hmessage : signedMessage sampleSigner [0x66, 0x77] =
      signedMessage sampleStripped sampleStrippedContent := rfl
  have hmixed := content_of_same_signature hdigest hdigest' hsignature (fun _ ↦ hmessage)
    verifySigner_sampleSigner verifySigner_sampleStripped
  exact ⟨verifySigner_sampleSigner, hmixed.1, verifySigner_sampleStripped, hmixed.2⟩

/-- The two contents have different digests, though nothing collides. -/
theorem hash_ne_of_stripped :
    sampleSigner.digestAlgorithm = sampleStripped.digestAlgorithm ∧
      sampleSigner.signature = sampleStripped.signature ∧
        verifySigner 0 sampleSigner Chain.sampleLeaf [0x66, 0x77] = .ok () ∧
          verifySigner 0 sampleStripped Chain.sampleLeaf sampleStrippedContent = .ok () ∧
            Digest.Algorithm.sha256.hash [0x66, 0x77] ≠
              Digest.Algorithm.sha256.hash sampleStrippedContent :=
  ⟨rfl, rfl, verifySigner_sampleSigner, verifySigner_sampleStripped, by decide +kernel⟩

end SignedFirmware.Trust
