import SignedFirmware.X509.AlgorithmId
import SignedFirmware.X509.Name.Text
import SignedFirmware.X509.Time

/-!
# Certificates

A certificate is a signed statement that binds a name to a public key. `Certificate.ofElement?`
reads one and `Certificate.toElement` writes it. A certificate is kept by its fields alone: the
bytes it was read from are gone, and wherever bytes are needed, for a signature, a fingerprint or a
list, they are those of the writer.
-/

namespace SignedFirmware.X509

/-- The version of a certificate. The later ones allow more fields. -/
inductive Version where
  | v1
  | v2
  | v3
  deriving DecidableEq, Repr

namespace Version

def toNat : Version → Nat
  | .v1 => 0
  | .v2 => 1
  | .v3 => 2

def ofNat? : Nat → Option Version
  | 0 => some .v1
  | 1 => some .v2
  | 2 => some .v3
  | _ => none

def ofElement? : Der.Decoder Version := fun e ↦ (Der.nat? e).bind ofNat?

end Version

/-- The most content octets of a serial number. -/
def maxSerialSize : Nat := 21

/-- Reads a serial number: a signed number of any sign, by its content octets. -/
def serial? : Der.Decoder Bytes := fun e ↦ do
  let content ← Der.integerContent? e
  if content.length ≤ maxSerialSize then some content else none

/-- The time between two others, both included. -/
structure Validity where
  /-- The first moment. -/
  notBefore : Time
  /-- The last moment. -/
  notAfter : Time
  deriving DecidableEq, Repr

/-- A public key of any kind: what it is for, and its bits. -/
structure PublicKeyInfo where
  /-- The algorithm that the key belongs to. -/
  algorithm : AlgorithmId
  key : Der.BitString
  deriving DecidableEq, Repr

/-- An extension: more about the subject, in a form that its identifier tells. -/
structure Extension where
  id : Oid
  /-- Whether a reader that does not know the extension has to refuse the certificate. -/
  critical : Bool
  /-- The content, which is an encoding of its own. -/
  value : Bytes
  deriving DecidableEq, Repr

/-- The part of a certificate that the signature covers. -/
structure TbsCertificate where
  version : Version
  /-- The content octets of the serial number. -/
  serial : Bytes
  /-- The algorithm of the signature, once more. -/
  signature : AlgorithmId
  issuer : Name
  validity : Validity
  subject : Name
  publicKey : PublicKeyInfo
  issuerUniqueId : Option Der.BitString
  subjectUniqueId : Option Der.BitString
  extensions : Option (List Extension)
  deriving DecidableEq, Repr

structure Certificate where
  tbs : TbsCertificate
  signatureAlgorithm : AlgorithmId
  signature : Der.BitString
  deriving DecidableEq, Repr

/-! ## Reading -/

def Validity.ofElement? : Der.Decoder Validity := Der.sequence do
  let notBefore ← Der.Fields.field Time.ofElement?
  let notAfter ← Der.Fields.field Time.ofElement?
  pure ⟨notBefore, notAfter⟩

def PublicKeyInfo.ofElement? : Der.Decoder PublicKeyInfo := Der.sequence do
  let algorithm ← Der.Fields.field AlgorithmId.ofElement?
  let key ← Der.Fields.field Der.bitString?
  pure ⟨algorithm, key⟩

/-- Reads an extension. It is not critical unless it says so. -/
def Extension.ofElement? : Der.Decoder Extension := Der.sequence do
  let id ← Der.Fields.field Der.oid?
  let critical ← Der.Fields.optional (· == Der.Tag.boolean) Der.bool?
  let value ← Der.Fields.field Der.octets?
  pure ⟨id, critical.getD false, value⟩

/-- Reads the signed part. It is of the first version unless it says otherwise. -/
def TbsCertificate.ofElement? : Der.Decoder TbsCertificate := Der.sequence do
  let version ← Der.Fields.explicit 0 Version.ofElement?
  let serial ← Der.Fields.field serial?
  let signature ← Der.Fields.field AlgorithmId.ofElement?
  let issuer ← Der.Fields.field Name.ofElement?
  let validity ← Der.Fields.field Validity.ofElement?
  let subject ← Der.Fields.field Name.ofElement?
  let publicKey ← Der.Fields.field PublicKeyInfo.ofElement?
  let issuerUniqueId ← Der.Fields.implicit 1 Der.Tag.bitString Der.bitString?
  let subjectUniqueId ← Der.Fields.implicit 2 Der.Tag.bitString Der.bitString?
  let extensions ← Der.Fields.explicit 3 (Der.sequenceOf Extension.ofElement?)
  pure
    { version := version.getD .v1
      serial, signature, issuer, validity, subject, publicKey
      issuerUniqueId, subjectUniqueId, extensions }

def Certificate.ofElement? : Der.Decoder Certificate := Der.sequence do
  let tbs ← Der.Fields.field TbsCertificate.ofElement?
  let signatureAlgorithm ← Der.Fields.field AlgorithmId.ofElement?
  let signature ← Der.Fields.field Der.bitString?
  pure ⟨tbs, signatureAlgorithm, signature⟩

/-! ## Writing -/

def Validity.toElement (v : Validity) : Der.Element :=
  .ofElements Der.Tag.sequence [v.notBefore.toElement, v.notAfter.toElement]

def PublicKeyInfo.toElement (k : PublicKeyInfo) : Der.Element :=
  .ofElements Der.Tag.sequence [k.algorithm.toElement, Der.ofBitString k.key]

/-- The element for an extension. Only the criticality that is not the default is written. -/
def Extension.toElement (x : Extension) : Der.Element :=
  .ofElements Der.Tag.sequence
    ([Der.ofOid x.id] ++ (if x.critical then [Der.ofBool true] else []) ++ [Der.ofOctets x.value])

def extensionsElement (xs : List Extension) : Der.Element :=
  .ofElements Der.Tag.sequence (xs.map Extension.toElement)

/-- The element for the signed part. Only a version that is not the default is written. -/
def TbsCertificate.toElement (t : TbsCertificate) : Der.Element :=
  .ofElements Der.Tag.sequence
    ((if t.version = .v1 then []
        else [.ofElements (Der.Tag.context 0) [Der.ofNat t.version.toNat]]) ++
      [⟨Der.Tag.integer, t.serial⟩, t.signature.toElement, t.issuer.toElement,
        t.validity.toElement, t.subject.toElement, t.publicKey.toElement] ++
      (t.issuerUniqueId.map fun b ↦ ⟨Der.Tag.contextPlain 1, b.content⟩).toList ++
      (t.subjectUniqueId.map fun b ↦ ⟨Der.Tag.contextPlain 2, b.content⟩).toList ++
      (t.extensions.map fun xs ↦
        Der.Element.ofElements (Der.Tag.context 3) [extensionsElement xs]).toList)

namespace Certificate

def toElement (c : Certificate) : Der.Element :=
  .ofElements Der.Tag.sequence
    [c.tbs.toElement, c.signatureAlgorithm.toElement, Der.ofBitString c.signature]

def encode (c : Certificate) : Bytes := c.toElement.encode

/-- The bytes that the signature covers. -/
def signedBytes (c : Certificate) : Bytes := c.tbs.toElement.encode

/-- Reads a certificate at the front of a byte string. What follows it is not looked at. -/
def decode? (data : Bytes) : Option Certificate :=
  (Der.readFront? ofElement? data).map Prod.fst

def subject (c : Certificate) : Name := c.tbs.subject

def issuer (c : Certificate) : Name := c.tbs.issuer

/-- How messages refer to a certificate. -/
def describe (c : Certificate) : String := c.subject.toText

/-- Whether subject and issuer have one name. -/
def IsSelfIssued (c : Certificate) : Prop := c.subject = c.issuer

instance (c : Certificate) : Decidable c.IsSelfIssued := by unfold IsSelfIssued; infer_instance

/-- The extension with the given identifier; of several, the first. -/
def extension? (c : Certificate) (id : Oid) : Option Extension :=
  (c.tbs.extensions.getD []).find? (·.id = id)

end Certificate

end SignedFirmware.X509
