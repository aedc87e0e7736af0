import SignedFirmware.Cms.Attribute
import SignedFirmware.X509.Extension

/-!
# Signers

What signed data says about one of its signers: which certificate is theirs, which algorithms they
used, the attributes they signed if they signed attributes at all, and the signature.
-/

namespace SignedFirmware.Cms

/-- How a signer names their certificate. -/
inductive SignerId where
  /-- By the name of the issuer and the content octets of the serial number. -/
  | issuerAndSerial (issuer : X509.Name) (serial : Bytes)
  /-- By the identifier of the key. -/
  | keyIdentifier (id : Bytes)
  deriving DecidableEq, Repr

namespace SignerId

def keyTag : Der.Tag := Der.Tag.contextPlain 0

def ofElement? : Der.Decoder SignerId := fun e ↦
  if e.tag = keyTag then some (.keyIdentifier e.content)
  else
    let fields : Der.Fields SignerId := do
      let issuer ← Der.Fields.field X509.Name.ofElement?
      let serial ← Der.Fields.field X509.serial?
      pure (.issuerAndSerial issuer serial)
    Der.sequence fields e

def toElement : SignerId → Der.Element
  | .issuerAndSerial issuer serial =>
    .ofElements Der.Tag.sequence [issuer.toElement, ⟨Der.Tag.integer, serial⟩]
  | .keyIdentifier id => ⟨keyTag, id⟩

/-- Whether a certificate is the one that is named. A certificate whose key identifier does not read
is never named by it. -/
def Matches (id : SignerId) (cert : X509.Certificate) : Prop :=
  match id with
  | .issuerAndSerial issuer serial => cert.issuer = issuer ∧ cert.tbs.serial = serial
  | .keyIdentifier key =>
    cert.extensionValue? X509.Extension.subjectKeyIdentifier Der.octets? = some (some key)

instance (id : SignerId) (cert : X509.Certificate) : Decidable (id.Matches cert) := by
  unfold Matches
  cases id <;> infer_instance

end SignerId

/-- Versions of signed data and of its signers are numbers below this. -/
def versionLimit : Nat := 6

/-- What signed data says about one signer. -/
structure SignerInfo where
  version : Nat
  id : SignerId
  digestAlgorithm : X509.AlgorithmId
  /-- The attributes that were signed in place of the content, if any. -/
  signedAttributes : Option (List Attribute)
  signatureAlgorithm : X509.AlgorithmId
  signature : Bytes
  /-- Attributes that nobody vouches for. -/
  unsignedAttributes : Option (List Attribute)
  deriving DecidableEq, Repr

namespace SignerInfo

def ofElement? : Der.Decoder SignerInfo := Der.sequence do
  let version ← Der.Fields.field (Der.natBelow? versionLimit)
  let id ← Der.Fields.field SignerId.ofElement?
  let digestAlgorithm ← Der.Fields.field X509.AlgorithmId.ofElement?
  let signedAttributes ← Der.Fields.implicit 0 Der.Tag.set Attribute.setOf?
  let signatureAlgorithm ← Der.Fields.field X509.AlgorithmId.ofElement?
  let signature ← Der.Fields.field Der.octets?
  let unsignedAttributes ← Der.Fields.implicit 1 Der.Tag.set Attribute.setOf?
  pure
    { version, id, digestAlgorithm, signedAttributes, signatureAlgorithm, signature
      unsignedAttributes }

def toElement (s : SignerInfo) : Der.Element :=
  .ofElements Der.Tag.sequence
    ([Der.ofNat s.version, s.id.toElement, s.digestAlgorithm.toElement] ++
      (s.signedAttributes.map fun as ↦
        (⟨Der.Tag.context 0, (Attribute.setElement as).content⟩ : Der.Element)).toList ++
      [s.signatureAlgorithm.toElement, Der.ofOctets s.signature] ++
      (s.unsignedAttributes.map fun as ↦
        (⟨Der.Tag.context 1, (Attribute.setElement as).content⟩ : Der.Element)).toList)

/-- Compares signers as members of a set, field by field. -/
def compare (a b : SignerInfo) : Ordering :=
  [ Der.compareHeader a.toElement b.toElement,
    Der.comparePlain (Der.ofNat a.version) (Der.ofNat b.version),
    Der.compareChoice a.id.toElement b.id.toElement,
    a.digestAlgorithm.compare b.digestAlgorithm,
    Der.compareOptional Attribute.compareSets a.signedAttributes b.signedAttributes,
    a.signatureAlgorithm.compare b.signatureAlgorithm,
    Der.comparePlain (Der.ofOctets a.signature) (Der.ofOctets b.signature),
    Der.compareOptional Attribute.compareSets a.unsignedAttributes b.unsignedAttributes ].foldl
      Ordering.then .eq

end SignerInfo

end SignedFirmware.Cms
