import SignedFirmware.Digest
import SignedFirmware.Der.Value

/-!
# Keys from passphrases: the iterated digest

A passphrase is turned into a key by a keyed digest that is applied over and over, so that guessing
takes time. `Prf.hmac` is the keyed digest and `Prf.derive` the iteration.
-/

namespace SignedFirmware.Key

/-- A digest to be used with a key. -/
structure Prf where
  hash : Bytes → Bytes
  /-- The number of bytes that it takes in at a time. -/
  blockSize : Nat
  size : Nat

namespace Prf

def sha256 : Prf := ⟨Digest.Sha2.sha256, 64, 32⟩

/-- The keyed digests that a key file may name. -/
def known : List (Oid × Prf) :=
  let digest (n : UInt8) : Oid := ⟨[0x2a, 0x86, 0x48, 0x86, 0xf7, 0x0d, 0x02, n]⟩
  [(digest 8, ⟨Digest.Sha2.sha224, 64, 28⟩), (digest 9, sha256),
    (digest 10, ⟨Digest.Sha2.sha384, 128, 48⟩), (digest 11, ⟨Digest.Sha2.sha512, 128, 64⟩)]

def xorBytes (a b : Bytes) : Bytes := List.zipWith (· ^^^ ·) a b

/-- The keyed digest of a message. -/
def hmac (p : Prf) (key message : Bytes) : Bytes :=
  let key := if key.length ≤ p.blockSize then key else p.hash key
  let key := key ++ List.replicate (p.blockSize - key.length) 0
  let inner := p.hash (key.map (· ^^^ 0x36) ++ message)
  p.hash (key.map (· ^^^ 0x5c) ++ inner)

/-- Applies the keyed digest `n` times more and adds up the results. -/
def iterate (p : Prf) (key : Bytes) : Nat → Bytes → Bytes → Bytes
  | 0, _, sum => sum
  | n + 1, last, sum =>
    let next := p.hmac key last
    iterate p key n next (xorBytes sum next)

/-- Block `i` of the derived key. -/
def deriveBlock (p : Prf) (passphrase salt : Bytes) (iterations i : Nat) : Bytes :=
  let first := p.hmac passphrase (salt ++ Bytes.ofNatBE 4 i)
  p.iterate passphrase (iterations - 1) first first

/-- A key of the given size. No iterations count as one. -/
def derive (p : Prf) (passphrase salt : Bytes) (iterations size : Nat) : Bytes :=
  let blocks := (List.range ((size + p.size - 1) / p.size)).map fun i ↦
    p.deriveBlock passphrase salt iterations (i + 1)
  blocks.flatten.take size

end Prf

end SignedFirmware.Key
