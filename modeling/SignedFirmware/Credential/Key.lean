import SignedFirmware.Credential.Error
import SignedFirmware.Rsa.Generate
import SignedFirmware.Rsa.Signature

/-!
# Operations on keys

Signing a digest, checking a signature, making a new key, and finding the public key of a
certificate. Each checks what it is given before it computes anything, and says which check failed.
-/

namespace SignedFirmware.Credential

/-- The most bytes that the modulus of a key may have. -/
def maxKeySize : Nat := 4096 / 8

def checkKeySize (size : Nat) : Except Error Unit :=
  if size ≤ maxKeySize then .ok () else .error (.keySize size)

/-- Refuses digests of another size than their algorithm gives. -/
def checkDigestSize (a : Digest.Algorithm) (digest : Bytes) : Except Error Unit :=
  if digest.length = a.size then .ok () else .error (.digestSize digest.length a)

/-- Whether a digest is only good enough to check old signatures. -/
def isWeak : Digest.Algorithm → Bool
  | .md5 | .sha1 => true
  | .sha256 | .sha384 | .sha512 => false

def sign (k : Rsa.PrivateKey) (a : Digest.Algorithm) (digest : Bytes) : Except Error Bytes := do
  checkDigestSize a digest
  if isWeak a then throw (.weakDigest a)
  checkKeySize k.size
  match k.sign? a digest with
  | some signature => pure signature
  | none => throw .sign

def verify (k : Rsa.PublicKey) (a : Digest.Algorithm) (digest signature : Bytes) :
    Except Error Unit := do
  checkDigestSize a digest
  checkKeySize k.size
  if k.Verifies a digest signature then pure () else throw .verify

/-- A new key whose modulus has the given number of bits. -/
def generateKey (seed : Bytes) (bits : Nat) : Except Error Rsa.PrivateKey := do
  checkKeySize (bits / 8)
  match Rsa.generate? seed bits with
  | some k => pure k
  | none => throw .generateKey

def publicKey (c : X509.Certificate) : Except Error Rsa.PublicKey :=
  match Rsa.PublicKey.ofInfo? c.tbs.publicKey with
  | some k => .ok k
  | none => .error .loadPublicKey

/-- Whether a certificate holds the public half of a private key. -/
def matchesKey (c : X509.Certificate) (k : Rsa.PrivateKey) : Except Error Bool :=
  (publicKey c).map fun p ↦ decide (p = k.publicKey)

end SignedFirmware.Credential
