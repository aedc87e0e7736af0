import SignedFirmware.Cms.SignerInfo
import SignedFirmware.Envelope
import SignedFirmware.X509.Revocation

/-!
# Signed data

Signed data holds the content that was signed, or stands beside it, together with certificates and
with one entry for each signer. It travels inside a content info, which names its type.

Certificates and revocation lists may also come in forms that this library only carries along.
-/

namespace SignedFirmware.Cms

/-- A value of any kind under the name of its form. -/
structure OtherForm (α : Type) where
  form : α
  value : Der.Element
  deriving DecidableEq, Repr

namespace OtherForm

/-- The fields of a value of another form. -/
def fields {α : Type} (form? : Der.Decoder α) : Der.Fields (OtherForm α) := do
  let form ← Der.Fields.field form?
  let value ← Der.Fields.next
  pure ⟨form, value⟩

end OtherForm

/-! ## Certificates -/

/-- A certificate in one of the forms that signed data may hold. -/
inductive CertificateChoice where
  | certificate (cert : X509.Certificate)
  | other (value : OtherForm Oid)
  deriving DecidableEq, Repr

namespace CertificateChoice

def ofElement? : Der.Decoder CertificateChoice := fun e ↦
  if e.tag = Der.Tag.context 3 then
    match Der.elements? e.content with
    | some [inner] => (Der.sequence (OtherForm.fields Der.oid?) inner).map other
    | _ => none
  else (X509.Certificate.ofElement? e).map certificate

def toElement : CertificateChoice → Der.Element
  | .certificate cert => cert.toElement
  | .other o =>
    .ofElements (Der.Tag.context 3) [.ofElements Der.Tag.sequence [Der.ofOid o.form, o.value]]

def compare (a b : CertificateChoice) : Ordering := Der.compareChoice a.toElement b.toElement

/-- The certificate, if it has the standard form. -/
def certificate? : CertificateChoice → Option X509.Certificate
  | .certificate cert => some cert
  | .other _ => none

end CertificateChoice

/-! ## Revocation lists -/

/-- A revocation list in one of the forms that signed data may hold. -/
inductive RevocationChoice where
  | list (list : X509.RevocationList)
  | other (value : OtherForm X509.AlgorithmId)
  deriving DecidableEq, Repr

namespace RevocationChoice

def ofElement? : Der.Decoder RevocationChoice := fun e ↦
  if e.tag = Der.Tag.context 1 then
    (Der.sequence (OtherForm.fields X509.AlgorithmId.ofElement?) ⟨Der.Tag.sequence, e.content⟩).map
      other
  else (X509.RevocationList.ofElement? e).map list

def toElement : RevocationChoice → Der.Element
  | .list l => l.toElement
  | .other o => .ofElements (Der.Tag.context 1) [o.form.toElement, o.value]

def compare (a b : RevocationChoice) : Ordering := Der.compareChoice a.toElement b.toElement

end RevocationChoice

/-! ## Content -/

/-- The content that was signed, or only its type. -/
structure EncapsulatedContent where
  /-- What kind of content this is. -/
  type : Oid
  /-- The content, of any kind. It is absent if it travels apart. -/
  content : Option Der.Element
  deriving DecidableEq, Repr

namespace EncapsulatedContent

/-- Content that is plain data. -/
def data : Oid := ⟨[0x2a, 0x86, 0x48, 0x86, 0xf7, 0x0d, 0x01, 0x07, 0x01]⟩

def ofElement? : Der.Decoder EncapsulatedContent := Der.sequence do
  let type ← Der.Fields.field Der.oid?
  let content ← Der.Fields.explicit 0 some
  pure ⟨type, content⟩

def toElement (c : EncapsulatedContent) : Der.Element :=
  .ofElements Der.Tag.sequence
    (Der.ofOid c.type ::
      (c.content.map fun x ↦ Der.Element.ofElements (Der.Tag.context 0) [x]).toList)

end EncapsulatedContent

/-! ## Signed data -/

/-- Signed data. All sets are in order. -/
structure SignedData where
  version : Nat
  digestAlgorithms : List X509.AlgorithmId
  content : EncapsulatedContent
  certificates : Option (List CertificateChoice)
  revocations : Option (List RevocationChoice)
  signers : List SignerInfo
  deriving DecidableEq, Repr

namespace SignedData

def ofElement? : Der.Decoder SignedData := Der.sequence do
  let version ← Der.Fields.field (Der.natBelow? versionLimit)
  let digestAlgorithms ← Der.Fields.field
    (setOf? X509.AlgorithmId.ofElement? X509.AlgorithmId.compare)
  let content ← Der.Fields.field EncapsulatedContent.ofElement?
  let certificates ← Der.Fields.implicit 0 Der.Tag.set
    (setOf? CertificateChoice.ofElement? CertificateChoice.compare)
  let revocations ← Der.Fields.implicit 1 Der.Tag.set
    (setOf? RevocationChoice.ofElement? RevocationChoice.compare)
  let signers ← Der.Fields.field (setOf? SignerInfo.ofElement? SignerInfo.compare)
  pure { version, digestAlgorithms, content, certificates, revocations, signers }

def toElement (d : SignedData) : Der.Element :=
  .ofElements Der.Tag.sequence
    ([Der.ofNat d.version,
        .ofElements Der.Tag.set (d.digestAlgorithms.map X509.AlgorithmId.toElement),
        d.content.toElement] ++
      (d.certificates.map fun cs ↦
        Der.Element.ofElements (Der.Tag.context 0) (cs.map CertificateChoice.toElement)).toList ++
      (d.revocations.map fun rs ↦
        Der.Element.ofElements (Der.Tag.context 1) (rs.map RevocationChoice.toElement)).toList ++
      [.ofElements Der.Tag.set (d.signers.map SignerInfo.toElement)])

def encode (d : SignedData) : Bytes := d.toElement.encode

end SignedData

/-! ## Content infos -/

/-- A value under the name of its type. -/
structure ContentInfo where
  type : Oid
  /-- The value, of any kind. -/
  content : Der.Element
  deriving DecidableEq, Repr

namespace ContentInfo

def signedData : Oid := ⟨Envelope.signedDataOid⟩

def ofElement? : Der.Decoder ContentInfo := Der.sequence do
  let type ← Der.Fields.field Der.oid?
  match ← Der.Fields.explicit 0 some with
  | some content => pure ⟨type, content⟩
  | none => failure

def toElement (c : ContentInfo) : Der.Element :=
  .ofElements Der.Tag.sequence [Der.ofOid c.type, .ofElements (Der.Tag.context 0) [c.content]]

def encode (c : ContentInfo) : Bytes := c.toElement.encode

/-- The content info that holds the given signed data. -/
def ofSignedData (d : SignedData) : ContentInfo := ⟨signedData, d.toElement⟩

end ContentInfo

end SignedFirmware.Cms
