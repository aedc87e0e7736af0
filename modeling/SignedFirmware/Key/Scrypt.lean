import SignedFirmware.Key.Prf

/-!
# Keys from passphrases: the derivation that needs memory

Before and after, the iterated digest spreads the passphrase out and gathers the key. In between,
long blocks are mixed along a path that depends on them and leads through a table of `cost` rows, so
that guessing takes memory as well as time.
-/

namespace SignedFirmware.Key.Scrypt

open Digest (Block32 rotl32)

/-! ## Mixing -/

/-- Four words stirred together. -/
@[inline] def quarter (a b c d : UInt32) : UInt32 × UInt32 × UInt32 × UInt32 :=
  let b := b ^^^ rotl32 (a + d) 7
  let c := c ^^^ rotl32 (b + a) 9
  let d := d ^^^ rotl32 (c + b) 13
  let a := a ^^^ rotl32 (d + c) 18
  (a, b, c, d)

/-- The words as a square, stirred along its columns and then along its rows. -/
def doubleRound (x : Block32) : Block32 :=
  let (w0, w4, w8, w12) := quarter x.w0 x.w4 x.w8 x.w12
  let (w5, w9, w13, w1) := quarter x.w5 x.w9 x.w13 x.w1
  let (w10, w14, w2, w6) := quarter x.w10 x.w14 x.w2 x.w6
  let (w15, w3, w7, w11) := quarter x.w15 x.w3 x.w7 x.w11
  let (w0, w1, w2, w3) := quarter w0 w1 w2 w3
  let (w5, w6, w7, w4) := quarter w5 w6 w7 w4
  let (w10, w11, w8, w9) := quarter w10 w11 w8 w9
  let (w15, w12, w13, w14) := quarter w15 w12 w13 w14
  ⟨w0, w1, w2, w3, w4, w5, w6, w7, w8, w9, w10, w11, w12, w13, w14, w15⟩

/-- Combines two blocks word by word. -/
@[inline] def combine (f : UInt32 → UInt32 → UInt32) (x y : Block32) : Block32 :=
  ⟨f x.w0 y.w0, f x.w1 y.w1, f x.w2 y.w2, f x.w3 y.w3, f x.w4 y.w4, f x.w5 y.w5, f x.w6 y.w6,
    f x.w7 y.w7, f x.w8 y.w8, f x.w9 y.w9, f x.w10 y.w10, f x.w11 y.w11, f x.w12 y.w12,
    f x.w13 y.w13, f x.w14 y.w14, f x.w15 y.w15⟩

/-- A block stirred in eight rounds. -/
def stir (x : Block32) : Block32 :=
  combine (· + ·) x (doubleRound (doubleRound (doubleRound (doubleRound x))))

/-- Every other block, from the first on. -/
def evens : List Block32 → List Block32
  | [] => []
  | [x] => [x]
  | x :: _ :: rest => x :: evens rest

/-- Stirs each block together with the result for the one before. -/
def chain (last : Block32) : List Block32 → List Block32
  | [] => []
  | x :: rest =>
    let y := stir (combine (· ^^^ ·) last x)
    y :: chain y rest

/-- Mixes the blocks of a row: each with the one before and the first with the last, and then those
in even places in front of the others. -/
def mixRow (row : List Block32) : List Block32 :=
  let mixed := chain (row.getLastD default) row
  evens mixed ++ evens mixed.tail

/-- The next `n` rows after a row, put at the end of a table, and the row after these. -/
def fillTable : Nat → List Block32 → Array (List Block32) → List Block32 × Array (List Block32)
  | 0, row, table => (row, table)
  | n + 1, row, table => fillTable n (mixRow row) (table.push row)

/-- Which row of a table of `cost` rows comes next. -/
def nextIndex (cost : Nat) (row : List Block32) : Nat :=
  let last := row.getLastD default
  (last.w0.toNat + 0x100000000 * last.w1.toNat) % cost

/-- Goes `n` steps through a table. -/
def walkTable (cost : Nat) (table : Array (List Block32)) : Nat → List Block32 → List Block32
  | 0, row => row
  | n + 1, row =>
    let other := table.getD (nextIndex cost row) []
    walkTable cost table n (mixRow (List.zipWith (combine (· ^^^ ·)) row other))

/-! ## Derivation -/

/-- The words of whole blocks. -/
def readRow : Nat → Bytes → List Block32
  | 0, _ => []
  | n + 1, b =>
    let (block, rest) := Block32.take Digest.takeWord32LE b
    block :: readRow n rest

/-- The bytes of the words of a row. -/
def writeRow (row : List Block32) : Bytes :=
  row.flatMap fun x ↦ x.toList.flatMap fun w ↦ Bytes.ofNatLE 4 w.toNat

/-- Mixes a row through a table of `cost` rows. -/
def mixThrough (cost blocks : Nat) (b : Bytes) : Bytes :=
  let (row, table) := fillTable cost (readRow (2 * blocks) b) #[]
  writeRow (walkTable cost table cost row)

/-- A key of the given size, with a table of `cost` rows, rows of `2 * blocks` blocks, and
`parallel` rows that are mixed apart. -/
def derive (passphrase salt : Bytes) (cost blocks parallel size : Nat) : Bytes :=
  let rowSize := 128 * blocks
  let spread := Prf.sha256.derive passphrase salt 1 (parallel * rowSize)
  let mixed := (Bytes.chunks rowSize spread).flatMap (mixThrough cost blocks)
  Prf.sha256.derive passphrase mixed 1 size

end SignedFirmware.Key.Scrypt
