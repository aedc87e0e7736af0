import SignedFirmware.Digest.Block

/-!
# SHA-1

The digest of FIPS 180-4 with 160 bits. It is only used to check signatures that others made and to
name keys, never to sign.
-/

namespace SignedFirmware.Digest.Sha1

/-- The five words of a chaining value. -/
structure State where
  (a b c d e : UInt32)
  deriving Inhabited

/-- The function of one round: a choice, a parity or a majority of the bits. -/
inductive Mix where
  | choose
  | parity
  | majority
  deriving Inhabited

/-- Combines three words bit by bit. -/
@[inline] def Mix.apply (m : Mix) (b c d : UInt32) : UInt32 :=
  match m with
  | .choose => (b &&& c) ||| (~~~b &&& d)
  | .parity => b ^^^ c ^^^ d
  | .majority => (b &&& c) ||| (b &&& d) ||| (c &&& d)

/-- `n` rounds of one kind, and the block they leave behind. -/
def stage (m : Mix) (k : UInt32) : Nat → Block32 → State → Block32 × State
  | 0, w, s => (w, s)
  | n + 1, w, ⟨a, b, c, d, e⟩ =>
    let t := rotl32 a 5 + m.apply b c d + e + k + w.w0
    let next := rotl32 (w.w13 ^^^ w.w8 ^^^ w.w2 ^^^ w.w0) 1
    stage m k n (w.push next) ⟨t, a, rotl32 b 30, c, d⟩

def step (s : State) (message : Bytes) : State × Bytes :=
  let (w, rest) := Block32.take takeWord32 message
  let (w, t) := stage .choose 0x5a827999 20 w s
  let (w, t) := stage .parity 0x6ed9eba1 20 w t
  let (w, t) := stage .majority 0x8f1bbcdc 20 w t
  let (_, t) := stage .parity 0xca62c1d6 20 w t
  (⟨s.a + t.a, s.b + t.b, s.c + t.c, s.d + t.d, s.e + t.e⟩, rest)

def sha1 (message : Bytes) : Bytes :=
  let padded := pad 64 (Bytes.ofNatBE 8 (8 * message.length)) message
  let s := absorb step (padded.length / 64)
    ⟨0x67452301, 0xefcdab89, 0x98badcfe, 0x10325476, 0xc3d2e1f0⟩ padded
  [s.a, s.b, s.c, s.d, s.e].flatMap bytes32

end SignedFirmware.Digest.Sha1
