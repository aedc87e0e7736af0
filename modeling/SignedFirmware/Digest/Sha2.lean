import SignedFirmware.Digest.Block

/-!
# SHA-2

The two families of FIPS 180-4: SHA-224 and SHA-256 on words of 32 bits, SHA-384 and SHA-512 on
words of 64 bits. Within a family only the start values and the length of the result differ.
-/

namespace SignedFirmware.Digest.Sha2

/-! ## Words of 32 bits -/

/-- The first 32 bits of the fractional parts of the cube roots of the first 64 primes. -/
def constants32 : List UInt32 :=
  [0x428a2f98, 0x71374491, 0xb5c0fbcf, 0xe9b5dba5, 0x3956c25b, 0x59f111f1, 0x923f82a4, 0xab1c5ed5,
   0xd807aa98, 0x12835b01, 0x243185be, 0x550c7dc3, 0x72be5d74, 0x80deb1fe, 0x9bdc06a7, 0xc19bf174,
   0xe49b69c1, 0xefbe4786, 0x0fc19dc6, 0x240ca1cc, 0x2de92c6f, 0x4a7484aa, 0x5cb0a9dc, 0x76f988da,
   0x983e5152, 0xa831c66d, 0xb00327c8, 0xbf597fc7, 0xc6e00bf3, 0xd5a79147, 0x06ca6351, 0x14292967,
   0x27b70a85, 0x2e1b2138, 0x4d2c6dfc, 0x53380d13, 0x650a7354, 0x766a0abb, 0x81c2c92e, 0x92722c85,
   0xa2bfe8a1, 0xa81a664b, 0xc24b8b70, 0xc76c51a3, 0xd192e819, 0xd6990624, 0xf40e3585, 0x106aa070,
   0x19a4c116, 0x1e376c08, 0x2748774c, 0x34b0bcb5, 0x391c0cb3, 0x4ed8aa4a, 0x5b9cca4f, 0x682e6ff3,
   0x748f82ee, 0x78a5636f, 0x84c87814, 0x8cc70208, 0x90befffa, 0xa4506ceb, 0xbef9a3f7, 0xc67178f2]

/-- The eight words of a chaining value. -/
structure State32 where
  (a b c d e f g h : UInt32)
  deriving Inhabited

/-- The rounds of one block. The block is moved on by one word of the message schedule a round. -/
def rounds32 : List UInt32 → Block32 → State32 → State32
  | [], _, s => s
  | k :: ks, b, ⟨a, b', c, d, e, f, g, h⟩ =>
    let s1 := rotr32 e 6 ^^^ rotr32 e 11 ^^^ rotr32 e 25
    let ch := (e &&& f) ^^^ (~~~e &&& g)
    let t1 := h + s1 + ch + k + b.w0
    let s0 := rotr32 a 2 ^^^ rotr32 a 13 ^^^ rotr32 a 22
    let maj := (a &&& b') ^^^ (a &&& c) ^^^ (b' &&& c)
    let x0 := rotr32 b.w1 7 ^^^ rotr32 b.w1 18 ^^^ (b.w1 >>> 3)
    let x1 := rotr32 b.w14 17 ^^^ rotr32 b.w14 19 ^^^ (b.w14 >>> 10)
    rounds32 ks (b.push (b.w0 + x0 + b.w9 + x1)) ⟨t1 + s0 + maj, a, b', c, d + t1, e, f, g⟩

def step32 (s : State32) (message : Bytes) : State32 × Bytes :=
  let (b, rest) := Block32.take takeWord32 message
  let t := rounds32 constants32 b s
  (⟨s.a + t.a, s.b + t.b, s.c + t.c, s.d + t.d, s.e + t.e, s.f + t.f, s.g + t.g, s.h + t.h⟩, rest)

/-- The chaining value after a message. -/
def run32 (start : State32) (message : Bytes) : State32 :=
  let padded := pad 64 (Bytes.ofNatBE 8 (8 * message.length)) message
  absorb step32 (padded.length / 64) start padded

def sha224 (message : Bytes) : Bytes :=
  let s := run32 ⟨0xc1059ed8, 0x367cd507, 0x3070dd17, 0xf70e5939,
    0xffc00b31, 0x68581511, 0x64f98fa7, 0xbefa4fa4⟩ message
  [s.a, s.b, s.c, s.d, s.e, s.f, s.g].flatMap bytes32

def sha256 (message : Bytes) : Bytes :=
  let s := run32 ⟨0x6a09e667, 0xbb67ae85, 0x3c6ef372, 0xa54ff53a,
    0x510e527f, 0x9b05688c, 0x1f83d9ab, 0x5be0cd19⟩ message
  [s.a, s.b, s.c, s.d, s.e, s.f, s.g, s.h].flatMap bytes32

/-! ## Words of 64 bits -/

/-- The first 64 bits of the fractional parts of the cube roots of the first 80 primes. -/
def constants64 : List UInt64 :=
  [0x428a2f98d728ae22, 0x7137449123ef65cd, 0xb5c0fbcfec4d3b2f, 0xe9b5dba58189dbbc,
   0x3956c25bf348b538, 0x59f111f1b605d019, 0x923f82a4af194f9b, 0xab1c5ed5da6d8118,
   0xd807aa98a3030242, 0x12835b0145706fbe, 0x243185be4ee4b28c, 0x550c7dc3d5ffb4e2,
   0x72be5d74f27b896f, 0x80deb1fe3b1696b1, 0x9bdc06a725c71235, 0xc19bf174cf692694,
   0xe49b69c19ef14ad2, 0xefbe4786384f25e3, 0x0fc19dc68b8cd5b5, 0x240ca1cc77ac9c65,
   0x2de92c6f592b0275, 0x4a7484aa6ea6e483, 0x5cb0a9dcbd41fbd4, 0x76f988da831153b5,
   0x983e5152ee66dfab, 0xa831c66d2db43210, 0xb00327c898fb213f, 0xbf597fc7beef0ee4,
   0xc6e00bf33da88fc2, 0xd5a79147930aa725, 0x06ca6351e003826f, 0x142929670a0e6e70,
   0x27b70a8546d22ffc, 0x2e1b21385c26c926, 0x4d2c6dfc5ac42aed, 0x53380d139d95b3df,
   0x650a73548baf63de, 0x766a0abb3c77b2a8, 0x81c2c92e47edaee6, 0x92722c851482353b,
   0xa2bfe8a14cf10364, 0xa81a664bbc423001, 0xc24b8b70d0f89791, 0xc76c51a30654be30,
   0xd192e819d6ef5218, 0xd69906245565a910, 0xf40e35855771202a, 0x106aa07032bbd1b8,
   0x19a4c116b8d2d0c8, 0x1e376c085141ab53, 0x2748774cdf8eeb99, 0x34b0bcb5e19b48a8,
   0x391c0cb3c5c95a63, 0x4ed8aa4ae3418acb, 0x5b9cca4f7763e373, 0x682e6ff3d6b2b8a3,
   0x748f82ee5defb2fc, 0x78a5636f43172f60, 0x84c87814a1f0ab72, 0x8cc702081a6439ec,
   0x90befffa23631e28, 0xa4506cebde82bde9, 0xbef9a3f7b2c67915, 0xc67178f2e372532b,
   0xca273eceea26619c, 0xd186b8c721c0c207, 0xeada7dd6cde0eb1e, 0xf57d4f7fee6ed178,
   0x06f067aa72176fba, 0x0a637dc5a2c898a6, 0x113f9804bef90dae, 0x1b710b35131c471b,
   0x28db77f523047d84, 0x32caab7b40c72493, 0x3c9ebe0a15c9bebc, 0x431d67c49c100d4c,
   0x4cc5d4becb3e42b6, 0x597f299cfc657e2a, 0x5fcb6fab3ad6faec, 0x6c44198c4a475817]

/-- The eight words of a chaining value. -/
structure State64 where
  (a b c d e f g h : UInt64)
  deriving Inhabited

/-- The rounds of one block. The block is moved on by one word of the message schedule a round. -/
def rounds64 : List UInt64 → Block64 → State64 → State64
  | [], _, s => s
  | k :: ks, b, ⟨a, b', c, d, e, f, g, h⟩ =>
    let s1 := rotr64 e 14 ^^^ rotr64 e 18 ^^^ rotr64 e 41
    let ch := (e &&& f) ^^^ (~~~e &&& g)
    let t1 := h + s1 + ch + k + b.w0
    let s0 := rotr64 a 28 ^^^ rotr64 a 34 ^^^ rotr64 a 39
    let maj := (a &&& b') ^^^ (a &&& c) ^^^ (b' &&& c)
    let x0 := rotr64 b.w1 1 ^^^ rotr64 b.w1 8 ^^^ (b.w1 >>> 7)
    let x1 := rotr64 b.w14 19 ^^^ rotr64 b.w14 61 ^^^ (b.w14 >>> 6)
    rounds64 ks (b.push (b.w0 + x0 + b.w9 + x1)) ⟨t1 + s0 + maj, a, b', c, d + t1, e, f, g⟩

def step64 (s : State64) (message : Bytes) : State64 × Bytes :=
  let (b, rest) := Block64.take message
  let t := rounds64 constants64 b s
  (⟨s.a + t.a, s.b + t.b, s.c + t.c, s.d + t.d, s.e + t.e, s.f + t.f, s.g + t.g, s.h + t.h⟩, rest)

/-- The chaining value after a message. -/
def run64 (start : State64) (message : Bytes) : State64 :=
  let padded := pad 128 (Bytes.ofNatBE 16 (8 * message.length)) message
  absorb step64 (padded.length / 128) start padded

def sha384 (message : Bytes) : Bytes :=
  let s := run64 ⟨
    0xcbbb9d5dc1059ed8, 0x629a292a367cd507, 0x9159015a3070dd17, 0x152fecd8f70e5939,
    0x67332667ffc00b31, 0x8eb44a8768581511, 0xdb0c2e0d64f98fa7, 0x47b5481dbefa4fa4⟩ message
  [s.a, s.b, s.c, s.d, s.e, s.f].flatMap bytes64

def sha512 (message : Bytes) : Bytes :=
  let s := run64 ⟨
    0x6a09e667f3bcc908, 0xbb67ae8584caa73b, 0x3c6ef372fe94f82b, 0xa54ff53a5f1d36f1,
    0x510e527fade682d1, 0x9b05688c2b3e6c1f, 0x1f83d9abfb41bd6b, 0x5be0cd19137e2179⟩ message
  [s.a, s.b, s.c, s.d, s.e, s.f, s.g, s.h].flatMap bytes64

end SignedFirmware.Digest.Sha2
