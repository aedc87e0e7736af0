import SignedFirmware.Key.Aes
import SignedFirmware.Key.Scrypt
import SignedFirmware.X509.AlgorithmId

/-!
# Encrypted keys

An encrypted key names how a key for the cipher is derived from the passphrase and which cipher is
used. `Scheme.ofAlgorithm?` reads what it names, and `decrypt?` and `encrypt` apply it.
-/

namespace SignedFirmware.Key

open Der X509

/-- How a key for the cipher comes from a passphrase. -/
inductive Derivation where
  /-- By an iterated digest. -/
  | iterated (salt : Bytes) (iterations : Nat) (size : Option Nat) (prf : Prf)
  /-- By mixing through a table. -/
  | scrypt (salt : Bytes) (cost blocks parallel : Nat) (size : Option Nat)

/-- A cipher with the vector that starts its chain. -/
structure Cipher where
  keySize : Nat
  iv : Bytes

/-- How a key is encrypted. -/
structure Scheme where
  derivation : Derivation
  cipher : Cipher

/-! ## Identifiers -/

def passphraseEncryption : Oid := ⟨[0x2a, 0x86, 0x48, 0x86, 0xf7, 0x0d, 0x01, 0x05, 0x0d]⟩

def iteratedDerivation : Oid := ⟨[0x2a, 0x86, 0x48, 0x86, 0xf7, 0x0d, 0x01, 0x05, 0x0c]⟩

def scryptDerivation : Oid := ⟨[0x2b, 0x06, 0x01, 0x04, 0x01, 0xda, 0x47, 0x04, 0x0b]⟩

/-- The ciphers and the sizes of their keys. -/
def ciphers : List (Oid × Nat) :=
  let aes (n : UInt8) : Oid := ⟨[0x60, 0x86, 0x48, 0x01, 0x65, 0x03, 0x04, 0x01, n]⟩
  [(aes 2, 16), (aes 22, 24), (aes 42, 32)]

/-! ## Reading -/

/-- The sizes and counts of a derivation are numbers below this. -/
def countLimit : Nat := 0x10000

/-- The number of rows is below this, and so is the number of bytes in all of them. -/
def costLimit : Nat := 0x10000000000000000

/-- The number of blocks that are mixed apart is below this. -/
def blockLimit : Nat := 0x40000000

/-- Iterations are numbers up to this. -/
def maxIterations : Nat := 100000000

def prf? : Decoder Prf := fun e ↦ do
  let algorithm ← AlgorithmId.ofElement? e
  if algorithm.parameters = some null then Prf.known.lookup algorithm.oid else none

/-- Reads the parameters of an iterated derivation. There is no digest that need not be named. -/
def iterated? : Decoder Derivation := sequence do
  let salt ← Fields.field octets?
  let iterations ← Fields.field (natBelow? (maxIterations + 1))
  let size ← Fields.optional (· == Tag.integer) (natBelow? countLimit)
  let prf ← Fields.field prf?
  pure (.iterated salt iterations size prf)

/-- Whether a derivation by mixing can be done: the number of rows is a power of two, there are
blocks and parallel rows, and none of them are too many. -/
def IsMixable (cost blocks parallel : Nat) : Prop :=
  cost ≠ 0 ∧ 1 <<< cost.log2 = cost ∧ 0 < blocks ∧ 0 < parallel ∧ cost.log2 < 16 * blocks ∧
    blocks * parallel < blockLimit ∧ cost * (128 * blocks) < costLimit

instance (cost blocks parallel : Nat) : Decidable (IsMixable cost blocks parallel) := by
  unfold IsMixable; infer_instance

def scrypt? : Decoder Derivation := sequence do
  let salt ← Fields.field octets?
  let cost ← Fields.field (natBelow? costLimit)
  let blocks ← Fields.field (natBelow? countLimit)
  let parallel ← Fields.field (natBelow? countLimit)
  let size ← Fields.optional (· == Tag.integer) (natBelow? countLimit)
  if IsMixable cost blocks parallel then pure (.scrypt salt cost blocks parallel size) else failure

def Derivation.ofAlgorithm? (a : AlgorithmId) : Option Derivation := do
  let parameters ← a.parameters
  if a.oid = iteratedDerivation then iterated? parameters
  else if a.oid = scryptDerivation then scrypt? parameters
  else none

def Cipher.ofAlgorithm? (a : AlgorithmId) : Option Cipher := do
  let keySize ← ciphers.lookup a.oid
  let parameters ← a.parameters
  let iv ← octets? parameters
  if iv.length = Aes.blockSize then some ⟨keySize, iv⟩ else none

def Scheme.ofAlgorithm? (a : AlgorithmId) : Option Scheme := do
  let parameters ← a.parameters
  if a.oid = passphraseEncryption then
    let fields : Fields Scheme := do
      let derivation ← Fields.field AlgorithmId.ofElement?
      let cipher ← Fields.field AlgorithmId.ofElement?
      let derivation ← Derivation.ofAlgorithm? derivation
      let cipher ← Cipher.ofAlgorithm? cipher
      pure ⟨derivation, cipher⟩
    sequence fields parameters
  else none

/-! ## Decryption -/

/-- The key for the cipher. A size that the derivation gives has to be the right one. -/
def Scheme.key? (s : Scheme) (passphrase : Bytes) : Option Bytes :=
  match s.derivation with
  | .iterated salt iterations size prf =>
    if size.all (· == s.cipher.keySize) then
      some (prf.derive passphrase salt iterations s.cipher.keySize)
    else none
  | .scrypt salt cost blocks parallel size =>
    if size.all (· == s.cipher.keySize) then
      some (Scrypt.derive passphrase salt cost blocks parallel s.cipher.keySize)
    else none

/-- Decrypts an encrypted key. The result is one sequence. -/
def decrypt? (passphrase data : Bytes) : Option Bytes := do
  let fields : Fields (Scheme × Bytes) := do
    let algorithm ← Fields.field AlgorithmId.ofElement?
    let scheme ← Scheme.ofAlgorithm? algorithm
    let cipherText ← Fields.field octets?
    pure (scheme, cipherText)
  let (scheme, cipherText) ← readAll? (sequence fields) data
  let key ← scheme.key? passphrase
  let text ← Aes.decrypt? key scheme.cipher.iv cipherText
  let e ← Element.ofBytes? text
  if e.tag = Tag.sequence then some text else none

/-! ## Encryption -/

/-- The rows that a new key is mixed through. -/
def defaultCost : Nat := 131072

/-- The blocks of each of these rows, in pairs. -/
def defaultBlocks : Nat := 8

/-- Encrypts a key, given a salt and a vector to start the chain. -/
def encrypt (passphrase salt iv text : Bytes) : Bytes :=
  let key := Scrypt.derive passphrase salt defaultCost defaultBlocks 1 32
  let derivation : AlgorithmId :=
    ⟨scryptDerivation, some (.ofElements Tag.sequence
      [ofOctets salt, ofNat defaultCost, ofNat defaultBlocks, ofNat 1])⟩
  let cipher : AlgorithmId :=
    ⟨⟨[0x60, 0x86, 0x48, 0x01, 0x65, 0x03, 0x04, 0x01, 42]⟩, some (ofOctets iv)⟩
  let scheme : AlgorithmId :=
    ⟨passphraseEncryption, some (.ofElements Tag.sequence
      [derivation.toElement, cipher.toElement])⟩
  (Element.ofElements Tag.sequence
    [scheme.toElement, ofOctets (Aes.encrypt key iv text)]).encode

end SignedFirmware.Key
