import SignedFirmware.Digest
import SignedFirmware.Rsa.Key

/-!
# New RSA keys

A new key is made of two primes that are drawn from a stream of bytes. The stream is a digest of a
seed and a counter, so that one seed always gives the same key. Candidates are tried in bounded
numbers; a search that finds nothing fails.
-/

namespace SignedFirmware.Rsa

/-! ## Drawing numbers -/

/-- A stream of bytes: what it starts from, and how many blocks were taken. -/
structure Stream where
  seed : Bytes
  taken : Nat := 0

namespace Stream

/-- The next bytes of a stream, in `n` blocks. -/
def blocks (s : Stream) (n : Nat) : Bytes :=
  (List.range n).flatMap fun i ↦ Digest.Sha2.sha256 (s.seed ++ Bytes.ofNatBE 8 (s.taken + i))

/-- A number of the given number of bits, and the stream after it. -/
def draw (s : Stream) (bits : Nat) : Nat × Stream :=
  let n := bits / 256 + 1
  (Bytes.toNat (s.blocks n) % 1 <<< bits, ⟨s.seed, s.taken + n⟩)

end Stream

/-! ## Primes -/

/-- The primes below 200. -/
def smallPrimes : List Nat :=
  (List.range 200).filter fun n ↦ 2 ≤ n ∧ (List.range n).all fun d ↦ d < 2 ∨ n % d ≠ 0

/-- Whether one of `n` repeated squares of `x` is -1 modulo `m`. -/
def reachesMinusOne (m : Nat) : Nat → Nat → Bool
  | 0, _ => false
  | n + 1, x => x == m - 1 || reachesMinusOne m n (x * x % m)

/-- How often 2 divides a number, up to `n` times, and the quotient. -/
def splitTwos : Nat → Nat → Nat × Nat
  | 0, m => (0, m)
  | n + 1, m =>
    if m % 2 = 0 then
      let (k, odd) := splitTwos n (m / 2)
      (k + 1, odd)
    else (0, m)

/-- Whether an odd number passes the test of Miller and Rabin to the given base. -/
def passesBase (m base : Nat) : Bool :=
  let (twos, odd) := splitTwos m.log2 (m - 1)
  let x := powMod base odd m
  x == 1 || reachesMinusOne m twos x

/-- Whether a number above 200 is taken for a prime, or a smaller one is a prime. -/
def isProbablePrime (m : Nat) : Bool :=
  -- the first 24 primes are the bases of the test
  smallPrimes.contains m ||
    (200 < m && smallPrimes.all (m % · != 0) && (smallPrimes.take 24).all (passesBase m))

def newExponent : Nat := 65537

/-- A number of the given number of bits whose two highest bits and lowest bit are set. -/
def shape (bits n : Nat) : Nat := n % 1 <<< (bits - 2) / 2 * 2 + 3 <<< (bits - 2) + 1

/-- Draws a prime that is not one more than a multiple of the public exponent. -/
def drawPrime (bits : Nat) : Nat → Stream → Option (Nat × Stream)
  | 0, _ => none
  | tries + 1, s =>
    let (n, s) := s.draw bits
    let p := shape bits n
    if isProbablePrime p ∧ (p - 1) % newExponent ≠ 0 then some (p, s) else drawPrime bits tries s

/-! ## Keys -/

/-- The key with the given primes. -/
def ofPrimes? (p q : Nat) : Option PrivateKey := do
  let d ← inverseMod? newExponent ((p - 1) * (q - 1))
  let k : PrivateKey := ⟨p * q, newExponent, d, p, q⟩
  if p ≠ q ∧ k.IsSound then some k else none

/-- Draws two primes until they make a key. -/
def drawKey (bits : Nat) : Nat → Stream → Option PrivateKey
  | 0, _ => none
  | tries + 1, s => do
    let (p, s) ← drawPrime (bits / 2) (200 * bits) s
    let (q, s) ← drawPrime (bits - bits / 2) (200 * bits) s
    match ofPrimes? p q with
    | some k => some k
    | none => drawKey bits tries s

/-- The least number of bits for which there are enough primes. -/
def minBits : Nat := 12

/-- A key whose modulus has the given number of bits. -/
def generate? (seed : Bytes) (bits : Nat) : Option PrivateKey :=
  if bits < minBits then none else drawKey bits 20 ⟨seed, 0⟩

end SignedFirmware.Rsa
