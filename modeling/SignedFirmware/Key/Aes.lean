import SignedFirmware.Key.Prf

/-!
# The block cipher of encrypted keys

The Advanced Encryption Standard on blocks of 16 bytes, with keys of 16, 24 or 32 bytes, and the
chaining of blocks in which each is added to the cipher text of the one before.

The tables of the standard are computed from what they stand for, the arithmetic of bytes as
polynomials over the field of two elements.
-/

namespace SignedFirmware.Key.Aes

/-! ## Arithmetic of bytes -/

/-- A byte times the polynomial `x`. -/
def timesX (a : UInt8) : UInt8 := (a <<< 1) ^^^ (if a &&& 0x80 = 0 then 0 else 0x1b)

/-- The product of two bytes; `n` is the number of bits of `b` that are looked at. -/
def mulBits (a b : UInt8) : Nat → UInt8
  | 0 => 0
  | n + 1 => (if b &&& 1 = 0 then 0 else a) ^^^ mulBits (timesX a) (b >>> 1) n

def mul (a b : UInt8) : UInt8 := mulBits a b 8

/-- The product of `n` copies of a byte. -/
def power (a : UInt8) : Nat → UInt8
  | 0 => 1
  | n + 1 => mul a (power a n)

/-- Rotates a byte to the left. -/
def rotate (a : UInt8) (n : UInt8) : UInt8 := (a <<< n) ||| (a >>> (8 - n))

/-- What the substitution makes of a byte: its inverse, mixed with its own rotations. -/
def substitute (a : UInt8) : UInt8 :=
  let i := power a 254
  i ^^^ rotate i 1 ^^^ rotate i 2 ^^^ rotate i 3 ^^^ rotate i 4 ^^^ 0x63

/-- The substitution as a table. -/
def forwardBox : Array UInt8 := Array.ofFn fun i : Fin 256 ↦ substitute (UInt8.ofNat i)

/-- The inverse of the substitution as a table. -/
def backwardBox : Array UInt8 :=
  (List.range 256).foldl (fun box i ↦ box.setIfInBounds (forwardBox.getD i 0).toNat (UInt8.ofNat i))
    (Array.replicate 256 0)

/-- Looks every byte up in a table. -/
def lookUp (box : Array UInt8) (b : Bytes) : Bytes := b.map fun x ↦ box.getD x.toNat 0

/-! ## Round keys -/

/-- The next word of the key schedule. `previous` has the words so far, the latest first; `i` is
their number, `n` the number of words of the key, and `constant` the round constant. -/
def nextWord (previous : List Bytes) (n i : Nat) (constant : UInt8) : Bytes :=
  let last := previous.headD []
  let changed :=
    if i % n = 0 then
      Prf.xorBytes (lookUp forwardBox (last.drop 1 ++ last.take 1)) [constant, 0, 0, 0]
    else if 6 < n ∧ i % n = 4 then lookUp forwardBox last
    else last
  Prf.xorBytes changed ((previous.drop (n - 1)).headD [])

/-- Adds `more` words to the key schedule. -/
def extend (n : Nat) : Nat → List Bytes → UInt8 → List Bytes
  | 0, words, _ => words
  | more + 1, words, constant =>
    let i := words.length
    let word := nextWord words n i constant
    extend n more (word :: words) (if i % n = 0 then timesX constant else constant)

/-- The round keys for a key, from the first to the last. -/
def roundKeys (key : Bytes) : List Bytes :=
  let words := (Bytes.chunks 4 key).reverse
  let n := words.length
  Bytes.chunks 16 (extend n (4 * (n + 7) - n) words 1).reverse.flatten

/-! ## Blocks -/

/-- Where each byte of a block comes from when the rows are shifted: byte `i` from place `5 i`. -/
def shifted : List Nat := (List.range 16).map fun i ↦ 5 * i % 16

/-- Where each byte of a block comes from when the rows are shifted back. -/
def unshifted : List Nat := (List.range 16).map fun i ↦ 13 * i % 16

/-- The bytes at the given places. -/
def permute (places : List Nat) (b : Bytes) : Bytes := places.map fun i ↦ b.getD i 0

/-- A column times a circulant matrix, given by its first row. -/
def mixColumn (m0 m1 m2 m3 : UInt8) : Bytes → Bytes
  | [a, b, c, d] =>
    [mul m0 a ^^^ mul m1 b ^^^ mul m2 c ^^^ mul m3 d,
      mul m3 a ^^^ mul m0 b ^^^ mul m1 c ^^^ mul m2 d,
      mul m2 a ^^^ mul m3 b ^^^ mul m0 c ^^^ mul m1 d,
      mul m1 a ^^^ mul m2 b ^^^ mul m3 c ^^^ mul m0 d]
  | column => column

/-- Mixes every column of a block. -/
def mixColumns (m0 m1 m2 m3 : UInt8) (b : Bytes) : Bytes :=
  (Bytes.chunks 4 b).flatMap (mixColumn m0 m1 m2 m3)

/-- The rounds of encryption. The last one mixes no columns. -/
def encryptRounds : List Bytes → Bytes → Bytes
  | [], b => b
  | [last], b => Prf.xorBytes (permute shifted (lookUp forwardBox b)) last
  | key :: keys, b =>
    encryptRounds keys
      (Prf.xorBytes (mixColumns 2 3 1 1 (permute shifted (lookUp forwardBox b))) key)

def encryptBlock (keys : List Bytes) (b : Bytes) : Bytes :=
  match keys with
  | [] => b
  | first :: keys => encryptRounds keys (Prf.xorBytes b first)

/-- Undoes the rounds of encryption, given the round keys from the last to the first. -/
def decryptRounds : List Bytes → Bytes → Bytes
  | [], b => b
  | [first], b => Prf.xorBytes (lookUp backwardBox (permute unshifted b)) first
  | key :: keys, b =>
    decryptRounds keys
      (mixColumns 14 11 13 9 (Prf.xorBytes (lookUp backwardBox (permute unshifted b)) key))

def decryptBlock (keys : List Bytes) (b : Bytes) : Bytes :=
  match keys.reverse with
  | [] => b
  | last :: keys => decryptRounds keys (Prf.xorBytes b last)

/-! ## Chains of blocks -/

def blockSize : Nat := 16

def encryptChain (keys : List Bytes) (before : Bytes) : List Bytes → List Bytes
  | [] => []
  | b :: rest =>
    let c := encryptBlock keys (Prf.xorBytes b before)
    c :: encryptChain keys c rest

def decryptChain (keys : List Bytes) (before : Bytes) : List Bytes → List Bytes
  | [] => []
  | c :: rest => Prf.xorBytes (decryptBlock keys c) before :: decryptChain keys c rest

/-- Encrypts a text. It is filled up to whole blocks by bytes that give their own number. -/
def encrypt (key iv text : Bytes) : Bytes :=
  let n := blockSize - text.length % blockSize
  let text := text ++ List.replicate n (UInt8.ofNat n)
  (encryptChain (roundKeys key) iv (Bytes.chunks blockSize text)).flatten

/-- The text without the bytes that fill it up. -/
def unpad? (text : Bytes) : Option Bytes :=
  match text.getLast? with
  | none => none
  | some x =>
    let n := x.toNat
    if 1 ≤ n ∧ n ≤ blockSize ∧ (text.drop (text.length - n)).all (· == x) ∧ n ≤ text.length then
      some (text.take (text.length - n))
    else none

/-- Decrypts a cipher text of whole blocks. -/
def decrypt? (key iv cipher : Bytes) : Option Bytes :=
  if cipher.length % blockSize = 0 then
    unpad? (decryptChain (roundKeys key) iv (Bytes.chunks blockSize cipher)).flatten
  else none

end SignedFirmware.Key.Aes
