import SignedFirmware.X509.Certificate

/-!
# Extensions of certificates

The extensions that matter for a chain: whether a key may sign certificates and how far down, what
a key may be used for, and which key it is. Each has a reader of its content, and the ones that
this library writes also a writer.
-/

namespace SignedFirmware.X509

/-- The identifier with the given last number among those of the standard extensions. -/
def extensionOid (n : UInt8) : Oid := ⟨[0x55, 0x1d, n]⟩

namespace Extension

/-- Which key the subject has. -/
def subjectKeyIdentifier : Oid := extensionOid 14
/-- What the key may be used for. -/
def keyUsage : Oid := extensionOid 15
/-- Other names of the subject. -/
def subjectAltName : Oid := extensionOid 17
/-- Whether the subject may sign certificates, and how far down. -/
def basicConstraints : Oid := extensionOid 19
/-- Which key the issuer has. -/
def authorityKeyIdentifier : Oid := extensionOid 35
/-- For which purposes the key may be used. -/
def extendedKeyUsage : Oid := extensionOid 37

/-- The extensions that the checks of a chain understand. -/
def handled : List Oid :=
  [basicConstraints, keyUsage, extendedKeyUsage, subjectKeyIdentifier, authorityKeyIdentifier,
    subjectAltName]

end Extension

/-! ## Basic constraints -/

/-- Whether the subject may sign certificates, and how far down. -/
structure BasicConstraints where
  isCa : Bool
  /-- How many intermediates may stand between the subject and the end of a chain. -/
  pathLength : Option Nat
  deriving DecidableEq, Repr

namespace BasicConstraints

def ofElement? : Der.Decoder BasicConstraints := Der.sequence do
  let isCa ← Der.Fields.optional (· == Der.Tag.boolean) Der.bool?
  let pathLength ← Der.Fields.optional (· == Der.Tag.integer) (Der.natBelow? 256)
  pure ⟨isCa.getD false, pathLength⟩

def toElement (b : BasicConstraints) : Der.Element :=
  .ofElements Der.Tag.sequence
    ((if b.isCa then [Der.ofBool true] else []) ++ (b.pathLength.map Der.ofNat).toList)

end BasicConstraints

/-! ## Key usage -/

/-- What a key may be used for, as a set of bits. -/
structure KeyUsage where
  bits : Der.BitString
  deriving DecidableEq, Repr

namespace KeyUsage

/-- Reads a key usage, which has at most 16 bits. -/
def ofElement? : Der.Decoder KeyUsage := fun e ↦ do
  let bits ← Der.bitString? e
  if bits.length ≤ 16 then some ⟨bits⟩ else none

/-- Whether the key may sign certificates. -/
def keyCertSign (u : KeyUsage) : Bool := u.bits.bit 5

/-- Keys that sign certificates and revocation lists. -/
def certSign : KeyUsage := ⟨⟨1, [0x06]⟩⟩

/-- Keys that sign data that cannot be disowned. -/
def dataSign : KeyUsage := ⟨⟨6, [0xc0]⟩⟩

end KeyUsage

/-! ## Purposes and key identifiers -/

/-- Reads the purposes for which a key may be used. -/
def keyPurposes? : Der.Decoder (List Oid) := Der.sequenceOf Der.oid?

/-- The purpose that stands for all of them. -/
def anyPurpose : Oid := ⟨[0x55, 0x1d, 0x25, 0x00]⟩

def codeSigningPurpose : Oid := ⟨[0x2b, 0x06, 0x01, 0x05, 0x05, 0x07, 0x03, 0x03]⟩

def emailProtectionPurpose : Oid := ⟨[0x2b, 0x06, 0x01, 0x05, 0x05, 0x07, 0x03, 0x04]⟩

/-- The content of an extension read as a whole. The inner result is absent if the extension does
not read. -/
def Certificate.extensionValue? {α : Type} (c : Certificate) (id : Oid) (decode : Der.Decoder α) :
    Option (Option α) :=
  (c.extension? id).map fun x ↦ Der.readAll? decode x.value

end SignedFirmware.X509
