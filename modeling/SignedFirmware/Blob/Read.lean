import SignedFirmware.Blob.Error
import SignedFirmware.Cms.SignedData

/-!
# Reading blobs

A blob is signed data, bare or wrapped, as it comes with a payload. Reading brings it into wrapped
form, reads the outer structure, and then the signed data in it. What follows the outer structure
is padding and not looked at; within it, everything is.

The module also finds the certificates of the signers among those that the blob holds.
-/

namespace SignedFirmware

namespace Blob

def checkSize (data : Bytes) : Except Error Unit :=
  if data.length ≤ maxInputSize then .ok () else .error (.inputTooLarge data.length)

/-- Refuses inputs that are empty or too large. -/
def checkInput (data : Bytes) : Except Error Unit :=
  if data = [] then .error .emptyInput else checkSize data

def normalize (data : Bytes) : Except Error Envelope :=
  (Envelope.normalize data).mapError .envelope

/-- The outer structure at the front of a wrapped form, and the padding behind it. -/
def readContentInfo? (data : Bytes) : Option (Cms.ContentInfo × Bytes) :=
  Der.readFront? Cms.ContentInfo.ofElement? data

/-- Reads the signed data in an outer structure. -/
def openContentInfo (info : Cms.ContentInfo) : Except Error Cms.SignedData :=
  if info.type = Cms.ContentInfo.signedData then
    match Cms.SignedData.ofElement? info.content with
    | some d => .ok d
    | none => .error .signedData
  else .error (.notSignedData info.type)

def read (data : Bytes) : Except Error Cms.SignedData := do
  checkInput data
  let envelope ← normalize data
  match readContentInfo? envelope.bytes with
  | none => throw .contentInfo
  | some (info, _) => openContentInfo info

/-- Reads a certificate. Bytes after its end are not looked at. -/
def readCertificate (data : Bytes) : Except Error X509.Certificate := do
  checkInput data
  match X509.Certificate.decode? data with
  | some c => pure c
  | none => throw .certificate

end Blob

/-! ## Certificates and signers -/

namespace Cms.SignedData

/-- The certificates in standard form, in order. -/
def standardCertificates (d : SignedData) : List X509.Certificate :=
  (d.certificates.getD []).filterMap CertificateChoice.certificate?

def singleSigner (d : SignedData) : Except Blob.Error SignerInfo :=
  match d.signers with
  | [signer] => .ok signer
  | signers => .error (.notOneSigner signers.length)

/-- The certificate of a signer, who stands at the given position: the first that they name. -/
def signerCertificate (d : SignedData) (position : Nat) (signer : SignerInfo) :
    Except Blob.Error X509.Certificate :=
  match d.standardCertificates.find? fun c ↦ decide (signer.id.Matches c) with
  | some c => .ok c
  | none => .error (.signerCertificateNotFound position)

def signerCertificates (d : SignedData) : Except Blob.Error (List X509.Certificate) :=
  if d.signers = [] then .error .noSigners
  else d.signers.zipIdx.mapM fun (signer, position) ↦ d.signerCertificate position signer

/-- The octets of the content, if it did not travel apart. -/
def embeddedContent (d : SignedData) : Option Bytes := d.content.content.map Der.Element.content

end Cms.SignedData

end SignedFirmware
