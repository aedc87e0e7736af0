import SignedFirmware.Bytes

/-!
# Messages in blocks

The digests of this library share a frame: the message is followed by one bit, zeros, and its
length in bits, so that it fills whole blocks; then the blocks are absorbed one after the other. A
block is 16 words, of 32 bits in `Block32` and of 64 bits in `Block64`. Both are flat records,
which the compression functions shift by one word in every round.
-/

namespace SignedFirmware.Digest

/-- The number of bytes that `size` leaves over in blocks of `block` bytes once the closing bit and
a length field of `field` bytes have been added. -/
def zeroCount (block field size : Nat) : Nat :=
  (block - (size + 1 + field) % block) % block

/-- The message with the closing bit, zeros, and the given length field. -/
def pad (block : Nat) (field : Bytes) (message : Bytes) : Bytes :=
  message ++ 0x80 :: (List.replicate (zeroCount block field.length message.length) 0 ++ field)

/-! ## Words -/

/-- A word of 32 bits, most significant byte first. -/
def word32 (a b c d : UInt8) : UInt32 :=
  (a.toUInt32 <<< 24) ||| (b.toUInt32 <<< 16) ||| (c.toUInt32 <<< 8) ||| d.toUInt32

/-- The bytes of a word of 32 bits, most significant byte first. -/
def bytes32 (x : UInt32) : Bytes :=
  [(x >>> 24).toUInt8, (x >>> 16).toUInt8, (x >>> 8).toUInt8, x.toUInt8]

/-- The bytes of a word of 64 bits, most significant byte first. -/
def bytes64 (x : UInt64) : Bytes :=
  bytes32 (x >>> 32).toUInt32 ++ bytes32 x.toUInt32

@[inline] def rotl32 (x : UInt32) (n : UInt32) : UInt32 := (x <<< n) ||| (x >>> (32 - n))

@[inline] def rotr32 (x : UInt32) (n : UInt32) : UInt32 := (x >>> n) ||| (x <<< (32 - n))

@[inline] def rotr64 (x : UInt64) (n : UInt64) : UInt64 := (x >>> n) ||| (x <<< (64 - n))

/-! ## Blocks -/

/-- Sixteen words of 32 bits. -/
structure Block32 where
  (w0 w1 w2 w3 w4 w5 w6 w7 w8 w9 w10 w11 w12 w13 w14 w15 : UInt32)
  deriving Inhabited

/-- Sixteen words of 64 bits. -/
structure Block64 where
  (w0 w1 w2 w3 w4 w5 w6 w7 w8 w9 w10 w11 w12 w13 w14 w15 : UInt64)
  deriving Inhabited

/-- The first word of `message` and the rest. A message in whole blocks has one. -/
def takeWord32 : Bytes → UInt32 × Bytes
  | a :: b :: c :: d :: rest => (word32 a b c d, rest)
  | rest => (0, rest)

/-- The first word of `message`, least significant byte first, and the rest. -/
def takeWord32LE : Bytes → UInt32 × Bytes
  | a :: b :: c :: d :: rest => (word32 d c b a, rest)
  | rest => (0, rest)

/-- The first word of `message` and the rest. -/
def takeWord64 (message : Bytes) : UInt64 × Bytes :=
  let (hi, rest) := takeWord32 message
  let (lo, rest) := takeWord32 rest
  ((hi.toUInt64 <<< 32) ||| lo.toUInt64, rest)

/-- The first block of `message` and the rest, with words as `take` reads them. -/
@[inline] def Block32.take (take : Bytes → UInt32 × Bytes) (message : Bytes) : Block32 × Bytes :=
  let (w0, r) := take message
  let (w1, r) := take r
  let (w2, r) := take r
  let (w3, r) := take r
  let (w4, r) := take r
  let (w5, r) := take r
  let (w6, r) := take r
  let (w7, r) := take r
  let (w8, r) := take r
  let (w9, r) := take r
  let (w10, r) := take r
  let (w11, r) := take r
  let (w12, r) := take r
  let (w13, r) := take r
  let (w14, r) := take r
  let (w15, r) := take r
  (⟨w0, w1, w2, w3, w4, w5, w6, w7, w8, w9, w10, w11, w12, w13, w14, w15⟩, r)

/-- The first block of `message` and the rest. -/
def Block64.take (message : Bytes) : Block64 × Bytes :=
  let (w0, r) := takeWord64 message
  let (w1, r) := takeWord64 r
  let (w2, r) := takeWord64 r
  let (w3, r) := takeWord64 r
  let (w4, r) := takeWord64 r
  let (w5, r) := takeWord64 r
  let (w6, r) := takeWord64 r
  let (w7, r) := takeWord64 r
  let (w8, r) := takeWord64 r
  let (w9, r) := takeWord64 r
  let (w10, r) := takeWord64 r
  let (w11, r) := takeWord64 r
  let (w12, r) := takeWord64 r
  let (w13, r) := takeWord64 r
  let (w14, r) := takeWord64 r
  let (w15, r) := takeWord64 r
  (⟨w0, w1, w2, w3, w4, w5, w6, w7, w8, w9, w10, w11, w12, w13, w14, w15⟩, r)

def Block32.toList (b : Block32) : List UInt32 :=
  [b.w0, b.w1, b.w2, b.w3, b.w4, b.w5, b.w6, b.w7,
   b.w8, b.w9, b.w10, b.w11, b.w12, b.w13, b.w14, b.w15]

/-- The block moved on by one word. -/
@[inline] def Block32.push (b : Block32) (w : UInt32) : Block32 :=
  ⟨b.w1, b.w2, b.w3, b.w4, b.w5, b.w6, b.w7, b.w8, b.w9, b.w10, b.w11, b.w12, b.w13, b.w14, b.w15,
    w⟩

@[inline] def Block64.push (b : Block64) (w : UInt64) : Block64 :=
  ⟨b.w1, b.w2, b.w3, b.w4, b.w5, b.w6, b.w7, b.w8, b.w9, b.w10, b.w11, b.w12, b.w13, b.w14, b.w15,
    w⟩

/-- Absorbs `n` blocks, each taken off the front by `step`. -/
@[specialize] def absorb {σ : Type} (step : σ → Bytes → σ × Bytes) : Nat → σ → Bytes → σ
  | 0, s, _ => s
  | n + 1, s, message =>
    let (s, rest) := step s message
    absorb step n s rest

end SignedFirmware.Digest
