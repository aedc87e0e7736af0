import SignedFirmware.Rsa.Key

/-!
# RSA signatures

The signature scheme of PKCS#1 version 1.5: the digest, named by its algorithm, is padded to the
size of the modulus and raised to the private exponent. A signature holds if the public exponent
takes it back to exactly that padded digest.
-/

namespace SignedFirmware.Rsa

/-- The digest together with the name of its algorithm. -/
def digestInfo (a : Digest.Algorithm) (digest : Bytes) : Bytes :=
  (Der.Element.ofElements Der.Tag.sequence
    [(X509.AlgorithmId.withNull a.oid).toElement, Der.ofOctets digest]).encode

/-- The digest padded to `size` bytes. At least eight bytes of padding have to fit. -/
def padded? (size : Nat) (a : Digest.Algorithm) (digest : Bytes) : Option Bytes :=
  let info := digestInfo a digest
  if info.length + 11 ≤ size then
    some ([0x00, 0x01] ++ List.replicate (size - info.length - 3) 0xff ++ 0x00 :: info)
  else none

/-- The signature of a digest. A key whose exponents do not undo each other makes none. -/
def PrivateKey.sign? (k : PrivateKey) (a : Digest.Algorithm) (digest : Bytes) : Option Bytes := do
  let message := Bytes.toNat (← padded? k.size a digest)
  let signature := k.power message
  if message < k.modulus ∧ powMod signature k.exponent k.modulus = message then
    some (Bytes.padLeft k.size (Bytes.ofNat signature))
  else none

/-- Whether a signature is that of a digest: it is as long as the modulus and a smaller number, and
the public exponent takes it to the padded digest. -/
def PublicKey.Verifies (k : PublicKey) (a : Digest.Algorithm) (digest signature : Bytes) : Prop :=
  signature.length = k.size ∧ Bytes.toNat signature < k.modulus ∧
    padded? k.size a digest =
      some (Bytes.padLeft k.size
        (Bytes.ofNat (powMod (Bytes.toNat signature) k.exponent k.modulus)))

instance (k : PublicKey) (a : Digest.Algorithm) (digest signature : Bytes) :
    Decidable (k.Verifies a digest signature) := by unfold PublicKey.Verifies; infer_instance

end SignedFirmware.Rsa
