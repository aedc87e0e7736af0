/-!
# Byte strings

A byte string is a list of bytes, so that every reader in this library is a recursion on what is
left to read. Besides the type, this module holds its two readings as a number (most and least
significant byte first), the writers that undo them, and the few facts about ASCII text that the
text formats share.
-/

namespace SignedFirmware

abbrev Bytes := List UInt8

namespace Bytes

/-- The UTF-8 bytes of a text. -/
def ofString (s : String) : Bytes := s.toUTF8.toList

/-- The text whose UTF-8 bytes these are, if there is one. -/
def toText? (b : Bytes) : Option String := String.fromUTF8? ⟨b.toArray⟩

/-! ## Numbers -/

/-- The number that the bytes spell, most significant byte first. -/
def toNat (b : Bytes) : Nat := b.foldl (fun n x ↦ n * 256 + x.toNat) 0

/-- The shortest spelling of a number, most significant byte first. Zero has no digits. -/
def ofNat (n : Nat) : Bytes :=
  go n []
where
  /-- Puts the digits of `n` in front of `acc`. -/
  go (n : Nat) (acc : Bytes) : Bytes :=
    if _h : n = 0 then acc else go (n / 256) (UInt8.ofNat n :: acc)
  termination_by n
  decreasing_by omega

/-- Zeros in front, up to the given width. Longer strings stay as they are. -/
def padLeft (width : Nat) (b : Bytes) : Bytes := List.replicate (width - b.length) 0 ++ b

/-- The lowest `width` digits of a number, most significant byte first. -/
def ofNatBE : Nat → Nat → Bytes
  | 0, _ => []
  | width + 1, n => UInt8.ofNat (n >>> (8 * width)) :: ofNatBE width n

/-- The lowest `width` digits of a number, least significant byte first. -/
def ofNatLE : Nat → Nat → Bytes
  | 0, _ => []
  | width + 1, n => UInt8.ofNat n :: ofNatLE width (n / 256)

/-- The number that the bytes spell, least significant byte first. -/
def toNatLE (b : Bytes) : Nat := b.foldr (fun x n ↦ x.toNat + 256 * n) 0

@[simp] theorem length_ofNatBE (width n : Nat) : (ofNatBE width n).length = width := by
  induction width with
  | zero => rfl
  | succ width ih => simp [ofNatBE, ih]

@[simp] theorem length_ofNatLE (width n : Nat) : (ofNatLE width n).length = width := by
  induction width generalizing n with
  | zero => rfl
  | succ width ih => simp [ofNatLE, ih]

/-! ## Hexadecimal -/

/-- A hexadecimal digit, in lower case. -/
def hexDigit (n : Nat) : Char :=
  if n < 10 then Char.ofNat ('0'.toNat + n) else Char.ofNat ('a'.toNat + (n - 10))

/-- Two hexadecimal digits for each byte. -/
def toHexChars (b : Bytes) : List Char :=
  b.flatMap fun x ↦ [hexDigit (x.toNat / 16), hexDigit (x.toNat % 16)]

def toHex (b : Bytes) : String := String.ofList b.toHexChars

/-- The value of a hexadecimal digit of either case. -/
def hexValue? (c : Char) : Option Nat :=
  if '0' ≤ c ∧ c ≤ '9' then some (c.toNat - '0'.toNat)
  else if 'a' ≤ c ∧ c ≤ 'f' then some (c.toNat - 'a'.toNat + 10)
  else if 'A' ≤ c ∧ c ≤ 'F' then some (c.toNat - 'A'.toNat + 10)
  else none

/-! ## ASCII text -/

/-- ASCII white space: tab, line feed, form feed, carriage return and space. -/
def isBlank (x : UInt8) : Bool := x == 9 || x == 10 || x == 12 || x == 13 || x == 32

def trimStart (b : Bytes) : Bytes := b.dropWhile isBlank

def trimEnd (b : Bytes) : Bytes := (b.reverse.dropWhile isBlank).reverse

/-- Puts a byte in front of the first line, or starts a new one in front of a line feed. -/
def consLine (x : UInt8) : List Bytes → List Bytes
  | [] => [[x]]
  | line :: more => if x = 10 then [] :: line :: more else (x :: line) :: more

/-- The text cut at every line feed. There is always one line more than there are line feeds. -/
def lines (b : Bytes) : List Bytes := b.foldr consLine [[]]

/-- The string cut into pieces of `n` bytes, of which the last may be shorter. -/
def chunks (n : Nat) (b : Bytes) : List Bytes :=
  if _h : b = [] ∨ n = 0 then [] else b.take n :: chunks n (b.drop n)
termination_by b.length
decreasing_by
  have : 0 < b.length := List.length_pos_iff.2 fun hb ↦ _h (.inl hb)
  simp only [List.length_drop]
  omega

end Bytes

end SignedFirmware
