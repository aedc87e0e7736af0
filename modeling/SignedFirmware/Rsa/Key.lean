import SignedFirmware.Rsa.Modular
import SignedFirmware.Digest
import SignedFirmware.X509.Certificate

/-!
# RSA keys

A public key is a modulus and an exponent. A private key also has the exponent that undoes the
public one and the two factors of the modulus. Both kinds are checked when they are read, so that
the operations on them need not be.
-/

namespace SignedFirmware.Rsa

structure PublicKey where
  modulus : Nat
  exponent : Nat
  deriving DecidableEq, Repr

/-- A private key with two factors. -/
structure PrivateKey where
  modulus : Nat
  exponent : Nat
  /-- The exponent that undoes the public one. -/
  privateExponent : Nat
  firstFactor : Nat
  secondFactor : Nat
  deriving DecidableEq, Repr

namespace PublicKey

/-- The number of bytes of the modulus. -/
def size (k : PublicKey) : Nat := (Bytes.ofNat k.modulus).length

/-- The most bits that the modulus of a public key may have. -/
def maxBits : Nat := 4096

/-- Exponents are numbers below this. -/
def exponentLimit : Nat := 0x200000000

/-- Whether a public key can be worked with: the modulus is odd and larger than the exponent, which
is odd, above 1 and below the limit. -/
def IsSound (k : PublicKey) : Prop :=
  k.exponent < k.modulus ∧ k.modulus % 2 = 1 ∧ k.exponent % 2 = 1 ∧ 2 ≤ k.exponent ∧
    k.exponent < exponentLimit

instance (k : PublicKey) : Decidable k.IsSound := by unfold IsSound; infer_instance

def ofElement? : Der.Decoder PublicKey := Der.sequence do
  let modulus ← Der.Fields.field Der.nat?
  let exponent ← Der.Fields.field Der.nat?
  pure ⟨modulus, exponent⟩

def toElement (k : PublicKey) : Der.Element :=
  .ofElements Der.Tag.sequence [Der.ofNat k.modulus, Der.ofNat k.exponent]

/-- The algorithm that RSA keys belong to. -/
def algorithm : X509.AlgorithmId := .withNull SignatureScheme.rsaEncryption

/-- The public key of a certificate or a request, if it is an RSA key. -/
def ofInfo? (info : X509.PublicKeyInfo) : Option PublicKey :=
  if info.algorithm = algorithm then do
    let octets ← info.key.wholeOctets?
    let k ← Der.readAll? ofElement? octets
    if k.modulus < 1 <<< maxBits ∧ k.IsSound then some k else none
  else none

/-- The form in which certificates hold a public key. -/
def toInfo (k : PublicKey) : X509.PublicKeyInfo := ⟨algorithm, ⟨0, k.toElement.encode⟩⟩

end PublicKey

namespace PrivateKey

/-- The public half. -/
def publicKey (k : PrivateKey) : PublicKey := ⟨k.modulus, k.exponent⟩

def size (k : PrivateKey) : Nat := k.publicKey.size

/-- Whether a private key can be worked with: its public half can, the factors make the modulus, and
the exponents undo each other for each factor. The modulus may have any number of bits, and factors
need not be primes. A factor of 1 is refused like any other wrong one, which is a limit of this
model: a check of keys may also let it pass and then divide by zero. -/
def IsSound (k : PrivateKey) : Prop :=
  k.publicKey.IsSound ∧ k.firstFactor * k.secondFactor = k.modulus ∧
    1 < k.firstFactor ∧ 1 < k.secondFactor ∧
    k.exponent * k.privateExponent % (k.firstFactor - 1) = 1 ∧
    k.exponent * k.privateExponent % (k.secondFactor - 1) = 1

instance (k : PrivateKey) : Decidable k.IsSound := by unfold IsSound; infer_instance

/-- The inverse of the second factor modulo the first. There is none if the factors are alike. -/
def coefficient? (k : PrivateKey) : Option Nat := inverseMod? k.secondFactor k.firstFactor

/-- Undoes the public operation on a number, through the two factors if they have an inverse. -/
def power (k : PrivateKey) (m : Nat) : Nat :=
  match k.coefficient? with
  | none => powMod m k.privateExponent k.modulus
  | some inverse =>
    let p := k.firstFactor
    let q := k.secondFactor
    let first := powMod (m % p) (k.privateExponent % (p - 1)) p
    let second := powMod (m % q) (k.privateExponent % (q - 1)) q
    second + q * (((first + (p - second % p)) * inverse) % p)

/-- Reads a private key. It gives its exponents and coefficient for the factors too, but these can
be found again and are not used. -/
def ofElement? : Der.Decoder PrivateKey := Der.sequence do
  let _ ← Der.Fields.field (Der.natBelow? 1)
  let modulus ← Der.Fields.field Der.nat?
  let exponent ← Der.Fields.field Der.nat?
  let privateExponent ← Der.Fields.field Der.nat?
  let firstFactor ← Der.Fields.field Der.nat?
  let secondFactor ← Der.Fields.field Der.nat?
  let _ ← Der.Fields.field Der.nat?
  let _ ← Der.Fields.field Der.nat?
  let _ ← Der.Fields.field Der.nat?
  let k : PrivateKey := ⟨modulus, exponent, privateExponent, firstFactor, secondFactor⟩
  if k.IsSound then pure k else failure

/-- The element for a private key, if it has a coefficient. -/
def toElement? (k : PrivateKey) : Option Der.Element := do
  let coefficient ← k.coefficient?
  pure (.ofElements Der.Tag.sequence ([0, k.modulus, k.exponent, k.privateExponent, k.firstFactor,
    k.secondFactor, k.privateExponent % (k.firstFactor - 1),
    k.privateExponent % (k.secondFactor - 1), coefficient].map Der.ofNat))

end PrivateKey

end SignedFirmware.Rsa
