import SignedFirmware.X509.Certificate

/-!
# Revocation lists

An issuer names certificates that no longer hold in a revocation list. Signed data may carry such
lists. No decision in this library looks at them, but a structure with a malformed list is itself
malformed, and a list takes part in the order of the set that holds it, so lists are read and
written like certificates.
-/

namespace SignedFirmware.X509

/-- A certificate that no longer holds. -/
structure RevokedCertificate where
  /-- The content octets of the serial number. -/
  serial : Bytes
  date : Time
  extensions : Option (List Extension)
  deriving DecidableEq, Repr

/-- The part of a revocation list that the signature covers. -/
structure TbsRevocationList where
  version : Version
  /-- The algorithm of the signature, once more. -/
  signature : AlgorithmId
  issuer : Name
  thisUpdate : Time
  nextUpdate : Option Time
  revoked : Option (List RevokedCertificate)
  extensions : Option (List Extension)
  deriving DecidableEq, Repr

structure RevocationList where
  tbs : TbsRevocationList
  signatureAlgorithm : AlgorithmId
  signature : Der.BitString
  deriving DecidableEq, Repr

/-! ## Reading -/

def extensions? : Der.Decoder (List Extension) := Der.sequenceOf Extension.ofElement?

def RevokedCertificate.ofElement? : Der.Decoder RevokedCertificate := Der.sequence do
  let serial ← Der.Fields.field serial?
  let date ← Der.Fields.field Time.ofElement?
  let extensions ← Der.Fields.optional (· == Der.Tag.sequence) extensions?
  pure ⟨serial, date, extensions⟩

/-- Reads the signed part. The version has to be there. -/
def TbsRevocationList.ofElement? : Der.Decoder TbsRevocationList := Der.sequence do
  let version ← Der.Fields.field Version.ofElement?
  let signature ← Der.Fields.field AlgorithmId.ofElement?
  let issuer ← Der.Fields.field Name.ofElement?
  let thisUpdate ← Der.Fields.field Time.ofElement?
  let nextUpdate ← Der.Fields.optional Time.accepts Time.ofElement?
  let revoked ← Der.Fields.optional (· == Der.Tag.sequence)
    (Der.sequenceOf RevokedCertificate.ofElement?)
  let extensions ← Der.Fields.explicit 0 extensions?
  pure { version, signature, issuer, thisUpdate, nextUpdate, revoked, extensions }

def RevocationList.ofElement? : Der.Decoder RevocationList := Der.sequence do
  let tbs ← Der.Fields.field TbsRevocationList.ofElement?
  let signatureAlgorithm ← Der.Fields.field AlgorithmId.ofElement?
  let signature ← Der.Fields.field Der.bitString?
  pure ⟨tbs, signatureAlgorithm, signature⟩

/-! ## Writing -/

def RevokedCertificate.toElement (r : RevokedCertificate) : Der.Element :=
  .ofElements Der.Tag.sequence
    ([⟨Der.Tag.integer, r.serial⟩, r.date.toElement] ++
      (r.extensions.map extensionsElement).toList)

def TbsRevocationList.toElement (t : TbsRevocationList) : Der.Element :=
  .ofElements Der.Tag.sequence
    ([Der.ofNat t.version.toNat, t.signature.toElement, t.issuer.toElement,
        t.thisUpdate.toElement] ++
      (t.nextUpdate.map Time.toElement).toList ++
      (t.revoked.map fun rs ↦
        Der.Element.ofElements Der.Tag.sequence (rs.map RevokedCertificate.toElement)).toList ++
      (t.extensions.map fun xs ↦
        Der.Element.ofElements (Der.Tag.context 0) [extensionsElement xs]).toList)

def RevocationList.toElement (l : RevocationList) : Der.Element :=
  .ofElements Der.Tag.sequence
    [l.tbs.toElement, l.signatureAlgorithm.toElement, Der.ofBitString l.signature]

end SignedFirmware.X509
