import SignedFirmware.Digest.Block

/-!
# MD5

The digest of RFC 1321 with 128 bits. It is only used to check signatures that others made, never
to sign. Words have their least significant byte first, in the message as in the result.
-/

namespace SignedFirmware.Digest.Md5

/-- The four words of a chaining value. -/
structure State where
  (a b c d : UInt32)
  deriving Inhabited

/-- The function of one round. -/
inductive Mix where
  | f
  | g
  | h
  | i
  deriving Inhabited

/-- Combines three words bit by bit. -/
@[inline] def Mix.apply (m : Mix) (x y z : UInt32) : UInt32 :=
  match m with
  | .f => (x &&& y) ||| (~~~x &&& z)
  | .g => (x &&& z) ||| (y &&& ~~~z)
  | .h => x ^^^ y ^^^ z
  | .i => y ^^^ (x ||| ~~~z)

/-- One step: the word of the block that it takes, its rotation and its constant. -/
structure Round where
  (word : UInt32)
  (shift : UInt32)
  (constant : UInt32)
  deriving Inhabited

/-- The steps of one round. -/
def stage (m : Mix) : List Round → State → State
  | [], s => s
  | r :: rs, ⟨a, b, c, d⟩ =>
    stage m rs ⟨d, b + rotl32 (a + m.apply b c d + r.word + r.constant) r.shift, b, c⟩

/-- The constants of the four rounds: the first 32 bits of the sines of 1 to 64. -/
def constants : List (List UInt32) :=
  [[0xd76aa478, 0xe8c7b756, 0x242070db, 0xc1bdceee, 0xf57c0faf, 0x4787c62a, 0xa8304613, 0xfd469501,
    0x698098d8, 0x8b44f7af, 0xffff5bb1, 0x895cd7be, 0x6b901122, 0xfd987193, 0xa679438e, 0x49b40821],
   [0xf61e2562, 0xc040b340, 0x265e5a51, 0xe9b6c7aa, 0xd62f105d, 0x02441453, 0xd8a1e681, 0xe7d3fbc8,
    0x21e1cde6, 0xc33707d6, 0xf4d50d87, 0x455a14ed, 0xa9e3e905, 0xfcefa3f8, 0x676f02d9, 0x8d2a4c8a],
   [0xfffa3942, 0x8771f681, 0x6d9d6122, 0xfde5380c, 0xa4beea44, 0x4bdecfa9, 0xf6bb4b60, 0xbebfbc70,
    0x289b7ec6, 0xeaa127fa, 0xd4ef3085, 0x04881d05, 0xd9d4d039, 0xe6db99e5, 0x1fa27cf8, 0xc4ac5665],
   [0xf4292244, 0x432aff97, 0xab9423a7, 0xfc93a039, 0x655b59c3, 0x8f0ccc92, 0xffeff47d, 0x85845dd1,
    0x6fa87e4f, 0xfe2ce6e0, 0xa3014314, 0x4e0811a1, 0xf7537e82, 0xbd3af235, 0x2ad7d2bb, 0xeb86d391]]

/-- Sixteen steps over the words of a block. The words are taken `stride` apart from the one at
`start`, round and round, and the four rotations alternate. -/
def plan (words constants : List UInt32) (start stride : Nat) (shifts : List UInt32) : List Round :=
  constants.mapIdx fun i k ↦
    ⟨words.getD ((start + stride * i) % 16) 0, shifts.getD (i % 4) 0, k⟩

def step (s : State) (message : Bytes) : State × Bytes :=
  let (block, rest) := Block32.take takeWord32LE message
  let words := block.toList
  let ks (i : Nat) := constants.getD i []
  let t := stage .f (plan words (ks 0) 0 1 [7, 12, 17, 22]) s
  let t := stage .g (plan words (ks 1) 1 5 [5, 9, 14, 20]) t
  let t := stage .h (plan words (ks 2) 5 3 [4, 11, 16, 23]) t
  let t := stage .i (plan words (ks 3) 0 7 [6, 10, 15, 21]) t
  (⟨s.a + t.a, s.b + t.b, s.c + t.c, s.d + t.d⟩, rest)

def md5 (message : Bytes) : Bytes :=
  let padded := pad 64 (Bytes.ofNatLE 8 (8 * message.length)) message
  let s := absorb step (padded.length / 64) ⟨0x67452301, 0xefcdab89, 0x98badcfe, 0x10325476⟩ padded
  [s.a, s.b, s.c, s.d].flatMap fun x ↦ (bytes32 x).reverse

end SignedFirmware.Digest.Md5
