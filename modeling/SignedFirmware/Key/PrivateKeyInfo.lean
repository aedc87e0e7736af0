import SignedFirmware.Key.Encryption
import SignedFirmware.Pem.Text
import SignedFirmware.Rsa.Key

/-!
# Private keys in files

A private key stands in its file as labelled text. Inside is a structure that says what the key
belongs to and holds the key as a string of octets, or that structure encrypted under a passphrase.
-/

namespace SignedFirmware.Key

open Der

/-! ## Reading -/

/-- Reads fields that nobody knows: elements `[n]` with one element inside. -/
def unknownFields : Fields Unit := fun es ↦
  let isUnknown (e : Element) : Bool :=
    e.tag.isContext && e.tag.isConstructed && (Element.ofBytes? e.content).isSome
  if es.all isUnknown then some ((), []) else none

/-- Reads the octets of a private RSA key. There is a public key in the structure if the version
says so, and it is not looked at. -/
def rsaOctets? : Decoder Bytes := sequence do
  let version ← Fields.field (natBelow? 2)
  let algorithm ← Fields.field X509.AlgorithmId.ofElement?
  let octets ← Fields.field octets?
  let publicKey ← Fields.implicit 1 Tag.bitString fun e ↦
    (bitString? e).bind BitString.wholeOctets?
  unknownFields
  if (version = 1) = publicKey.isSome ∧ algorithm = Rsa.PublicKey.algorithm then pure octets
  else failure

def ofBytes? (data : Bytes) : Option Rsa.PrivateKey := do
  let octets ← readAll? rsaOctets? data
  readAll? Rsa.PrivateKey.ofElement? octets

def label : String := "PRIVATE KEY"

def encryptedLabel : String := "ENCRYPTED PRIVATE KEY"

def ofPem? (text : Bytes) : Option Rsa.PrivateKey := (Pem.parse? label text).bind ofBytes?

def ofEncryptedPem? (passphrase text : Bytes) : Option Rsa.PrivateKey := do
  let data ← Pem.parse? encryptedLabel text
  let data ← decrypt? passphrase data
  ofBytes? data

/-! ## Writing -/

def toBytes? (k : Rsa.PrivateKey) : Option Bytes := do
  let inner ← k.toElement?
  pure (Element.ofElements Tag.sequence
    [ofNat 0, Rsa.PublicKey.algorithm.toElement, ofOctets inner.encode]).encode

def toPem? (k : Rsa.PrivateKey) : Option Bytes := (toBytes? k).map (Pem.render label)

def toEncryptedPem? (passphrase salt iv : Bytes) (k : Rsa.PrivateKey) : Option Bytes :=
  (toBytes? k).map fun data ↦ Pem.render encryptedLabel (encrypt passphrase salt iv data)

end SignedFirmware.Key
