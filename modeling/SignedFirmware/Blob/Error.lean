import SignedFirmware.CertList
import SignedFirmware.Credential.Error
import SignedFirmware.Envelope
import SignedFirmware.Trust.Policy

/-!
# Failures of the operations on blobs

Everything that can go wrong with a signature blob, from reading it to trusting it. A failure names
the certificate it is about by its subject, and a signer by their position.
-/

namespace SignedFirmware

namespace Blob

/-- The largest accepted input, the most that a signed length of 32 bits can say. -/
def maxInputSize : Nat := 0x7fffffff

/-- Why an operation on a blob failed. -/
inductive Error where
  | emptyInput
  | inputTooLarge (size : Nat)
  | bufferTooSmall (required actual : Nat)
  /-- The input has no wrapped form. -/
  | envelope (cause : Envelope.Error)
  /-- The outer structure does not read. -/
  | contentInfo
  | signedData
  | certificate
  | extension (id : Oid) (subject : X509.Name)
  /-- The outer structure holds something else. -/
  | notSignedData (type : Oid)
  | noSigners
  | notOneSigner (count : Nat)
  /-- The certificate of a signer is not among those in the blob. -/
  | signerCertificateNotFound (signer : Nat)
  | certList (cause : CertList.Error)
  | unsupportedDigest (algorithm : Oid)
  | unsupportedSignature (algorithm : Oid)
  /-- A signer signed attributes, but not the digest of the content. -/
  | messageDigestMissing (signer : Nat)
  /-- A signer signed the digest of another content. -/
  | messageDigestMismatch (signer : Nat)
  | publicKey (subject : X509.Name) (cause : Credential.Error)
  | signatureInvalid (signer : Nat) (cause : Credential.Error)
  | certificateSignatureInvalid (subject : X509.Name) (cause : Credential.Error)
  | issuerNotFound (subject : X509.Name)
  /-- The chain ends at a root that nobody trusts. -/
  | untrustedRoot (subject : X509.Name)
  | notCa (subject : X509.Name)
  /-- An issuer allows fewer intermediates than there are. -/
  | pathTooLong (subject : X509.Name) (limit : Nat)
  | unhandledExtension (id : Oid) (subject : X509.Name)
  | expired (subject : X509.Name)
  | notYetValid (subject : X509.Name)
  | purposeMismatch (subject : X509.Name) (purpose : Trust.Purpose)
  | chainTooDeep (limit : Nat)
  /-- A part of a blob has no encoding. -/
  | encoding (part : String)
  | sign (subject : X509.Name) (cause : Credential.Error)
  deriving DecidableEq, Repr

namespace Error

def message : Error → String
  | emptyInput => "Input is empty"
  | inputTooLarge n => s!"Input size {n} exceeds limit of {maxInputSize} bytes"
  | bufferTooSmall required actual =>
    s!"Destination buffer is too small: {actual} < {required} bytes"
  | envelope _ => "Failed to normalize ContentInfo envelope"
  | contentInfo => "Failed to decode ContentInfo"
  | signedData => "Failed to decode SignedData"
  | certificate => "Failed to decode trusted certificate"
  | extension id subject => s!"Failed to decode {id} extension of {subject}"
  | notSignedData type => s!"ContentInfo type is not signedData: {type}"
  | noSigners => "SignedData contains no SignerInfo"
  | notOneSigner n => s!"Expected exactly one SignerInfo, but found {n}"
  | signerCertificateNotFound i =>
    s!"Certificate for SignerInfo #{i} is not embedded in SignedData"
  | certList _ => "Failed to serialize certificate list"
  | unsupportedDigest algorithm => s!"Unsupported digest algorithm: {algorithm}"
  | unsupportedSignature algorithm => s!"Unsupported signature algorithm: {algorithm}"
  | messageDigestMissing i => s!"Signed attributes of SignerInfo #{i} have no messageDigest"
  | messageDigestMismatch i => s!"messageDigest of SignerInfo #{i} does not match content"
  | publicKey subject _ => s!"Failed to load public key of {subject}"
  | signatureInvalid i _ => s!"Signature of SignerInfo #{i} is invalid"
  | certificateSignatureInvalid subject _ => s!"Signature of certificate {subject} is invalid"
  | issuerNotFound subject => s!"Issuer of certificate {subject} not found"
  | untrustedRoot subject => s!"Chain ends at untrusted certificate {subject}"
  | notCa subject => s!"Issuer {subject} is not a CA"
  | pathTooLong subject limit => s!"Issuer {subject} allows at most {limit} intermediates below it"
  | unhandledExtension id subject => s!"Unhandled critical extension {id} in {subject}"
  | expired subject => s!"Certificate {subject} has expired"
  | notYetValid subject => s!"Certificate {subject} is not yet valid"
  | purposeMismatch subject purpose =>
    s!"Certificate {subject} is not valid for purpose {purpose.name}"
  | chainTooDeep limit => s!"Chain exceeds maximum depth of {limit}"
  | encoding part => s!"Failed to DER encode {part}"
  | sign subject _ => s!"Failed to sign with {subject}"

/-- What is said about the failure behind a failure, if there is one. -/
def cause? : Error → Option String
  | envelope cause => some cause.message
  | certList cause => some cause.message
  | publicKey _ cause | signatureInvalid _ cause | certificateSignatureInvalid _ cause
  | sign _ cause => some cause.message
  | _ => none

/-- The coarse kinds of failures. -/
inductive Class where
  /-- The input is empty or too large, or the output does not fit. -/
  | invalidInput
  /-- The input does not read. -/
  | malformed
  /-- The input reads, but is nothing that this library handles. -/
  | unsupported
  /-- The structure is fine, but a signature or a chain does not hold. -/
  | rejected
  deriving DecidableEq, Repr

def toClass : Error → Class
  | emptyInput | inputTooLarge _ | bufferTooSmall .. | sign .. => .invalidInput
  | envelope _ | certList _ | contentInfo | signedData | certificate | extension .. | encoding _ =>
    .malformed
  | notSignedData _ | noSigners | notOneSigner _ | signerCertificateNotFound _
  | unsupportedDigest _ | unsupportedSignature _ => .unsupported
  | messageDigestMissing _ | messageDigestMismatch _ | publicKey .. | signatureInvalid ..
  | certificateSignatureInvalid .. | issuerNotFound _ | untrustedRoot _ | notCa _ | pathTooLong ..
  | unhandledExtension .. | expired _ | notYetValid _ | purposeMismatch .. | chainTooDeep _ =>
    .rejected

end Error

/-- The bytes of an element, which is the named part of a blob. -/
def encoded (part : String) (e : Der.Element) : Except Error Bytes :=
  match e.encode? with
  | some bytes => .ok bytes
  | none => .error (.encoding part)

end Blob

end SignedFirmware
