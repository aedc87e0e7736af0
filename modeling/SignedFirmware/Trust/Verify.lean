import SignedFirmware.Trust.Chain

/-!
# Verification of signed data

Signed data is accepted if every signer has a chain of trust and every signature holds. All chains
come before all signatures.
-/

namespace SignedFirmware.Trust

open X509 (Certificate)
open Blob (Error)

/-- The digest that a signer uses. The scheme of the signature only has to be one of RSA. -/
def signerDigest (signer : Cms.SignerInfo) : Except Error Digest.Algorithm := do
  match Digest.Algorithm.ofOid? signer.digestAlgorithm.oid with
  | none => throw (.unsupportedDigest signer.digestAlgorithm.oid)
  | some digest =>
    if (SignatureScheme.ofOid? signer.signatureAlgorithm.oid).isSome then pure digest
    else throw (.unsupportedSignature signer.signatureAlgorithm.oid)

/-- The first value of the first attribute that gives the digest of the content. -/
def messageDigest? (attributes : List Cms.Attribute) : Option Der.Element :=
  (attributes.find? (·.type = Cms.Attribute.messageDigest)).bind fun a ↦ a.values.head?

/-- The digest that a signature is made over: that of the content, or that of signed attributes,
which then have to give the digest of the content. -/
def signedDigest (position : Nat) (signer : Cms.SignerInfo) (digest : Digest.Algorithm)
    (content : Bytes) : Except Error Bytes := do
  let contentDigest := digest.hash content
  match signer.signedAttributes with
  | none => pure contentDigest
  | some attributes =>
    match messageDigest? attributes with
    | none => throw (.messageDigestMissing position)
    | some value =>
      match Der.octets? value with
      -- a value of another kind makes the blob malformed; it is no digest that differs
      | none => throw .signedData
      | some octets =>
        if octets = contentDigest then
          let bytes ← Blob.encoded "signed attributes" (Cms.Attribute.setElement attributes)
          pure (digest.hash bytes)
        else throw (.messageDigestMismatch position)

/-- Checks the signature of one signer over some content. -/
def verifySigner (position : Nat) (signer : Cms.SignerInfo) (cert : Certificate)
    (content : Bytes) : Except Error Unit := do
  let digest ← signerDigest signer
  let signed ← signedDigest position signer digest content
  let key ← publicKey cert
  (Credential.verify key digest signed signer.signature).mapError (.signatureInvalid position)

/-- The signers with their certificates and positions. -/
def withCertificates (d : Cms.SignedData) (certs : List Certificate) :
    List ((Cms.SignerInfo × Certificate) × Nat) :=
  (d.signers.zip certs).zipIdx

/-- Checks signed data over some content. -/
def verify (s : Chain.Setting) (d : Cms.SignedData) (content : Bytes) : Except Error Unit := do
  let certs ← d.signerCertificates
  -- the chain of one signer is looked at before the signature of any other
  certs.forM fun cert ↦ do
    let _ ← Chain.verify s cert d.standardCertificates
  (withCertificates d certs).forM fun ((signer, cert), position) ↦
    verifySigner position signer cert content

/-- Checks a blob over some content, with one encoded certificate to be trusted. -/
def verifyBlob (signed trusted content : Bytes) (policy : Policy) (now : Instant) :
    Except Error Unit := do
  Blob.checkInput signed
  Blob.checkInput trusted
  Blob.checkSize content
  let d ← Blob.read signed
  let store ← Store.ofBytes trusted
  verify ⟨store, policy, now⟩ d content

/-- Whether a blob over some content is accepted under the default policy. -/
def accepts (signed trusted content : Bytes) (now : Instant) : Bool :=
  (verifyBlob signed trusted content {} now).isOk

end SignedFirmware.Trust
