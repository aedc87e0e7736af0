import SignedFirmware.Der.Fields
import SignedFirmware.Oid

/-!
# Plain values

The values without elements inside: truth values, whole numbers, strings of bits and octets, object
identifiers and nothing. Each has a reader of an element and a writer that undoes it.
-/

namespace SignedFirmware.Der

/-! ## Truth values -/

/-- The element for a truth value: all bits set, or none. -/
def ofBool (b : Bool) : Element := ⟨Tag.boolean, [if b then 0xff else 0x00]⟩

/-- Reads a truth value; no other octets than the two of the writer will do. -/
def bool? : Decoder Bool
  | ⟨0x01, [0x00]⟩ => some false
  | ⟨0x01, [0xff]⟩ => some true
  | _ => none

/-! ## Whole numbers -/

/-- Whether octets are the shortest spelling of a signed number: the first nine bits are not all
alike. -/
def isCanonicalInteger : Bytes → Bool
  | [] => false
  | [_] => true
  | a :: b :: _ => !(a == 0x00 && b < 0x80) && !(a == 0xff && 0x80 ≤ b)

/-- Reads a signed number as its content octets. -/
def integerContent? : Decoder Bytes := fun e ↦
  if e.tag = Tag.integer ∧ isCanonicalInteger e.content then some e.content else none

/-- The content octets of a natural number: its digits, behind a zero if the first of them would
make the number negative. -/
def natContent (n : Nat) : Bytes :=
  match Bytes.ofNat n with
  | [] => [0]
  | first :: rest => if 0x80 ≤ first then 0 :: first :: rest else first :: rest

def ofNat (n : Nat) : Element := ⟨Tag.integer, natContent n⟩

def nat? : Decoder Nat := fun e ↦ do
  let content ← integerContent? e
  if content.headD 0 < 0x80 then some (Bytes.toNat content) else none

def natBelow? (limit : Nat) : Decoder Nat := fun e ↦ do
  let n ← nat? e
  if n < limit then some n else none

/-! ## Strings of octets and bits -/

def ofOctets (b : Bytes) : Element := ⟨Tag.octetString, b⟩

def octets? : Decoder Bytes := fun e ↦ if e.tag = Tag.octetString then some e.content else none

/-- A string of bits: whole octets, of which the last has some bits that do not count. -/
structure BitString where
  /-- How many bits of the last octet do not count. -/
  unused : UInt8
  /-- The octets. The bits that do not count may have any value. -/
  octets : Bytes
  deriving DecidableEq, Repr, Inhabited

namespace BitString

def content (b : BitString) : Bytes := b.unused :: b.octets

def ofContent? : Bytes → Option BitString
  | [] => none
  | unused :: octets =>
    if unused ≤ 7 ∧ (unused = 0 ∨ octets ≠ []) then some ⟨unused, octets⟩ else none

/-- The octets of a string of whole octets. -/
def wholeOctets? (b : BitString) : Option Bytes := if b.unused = 0 then some b.octets else none

def length (b : BitString) : Nat := 8 * b.octets.length - b.unused.toNat

/-- The bit at a position, counted from the highest bit of the first octet. Past the end, no bit is
set. -/
def bit (b : BitString) (i : Nat) : Bool :=
  decide (i < b.length) && (b.octets.getD (i / 8) 0).toNat.testBit (7 - i % 8)

end BitString

def ofBitString (b : BitString) : Element := ⟨Tag.bitString, b.content⟩

def bitString? : Decoder BitString := fun e ↦
  if e.tag = Tag.bitString then BitString.ofContent? e.content else none

/-! ## Object identifiers and nothing -/

def ofOid (o : Oid) : Element := ⟨Tag.oid, o.content⟩

def oid? : Decoder Oid := fun e ↦ if e.tag = Tag.oid then Oid.ofContent? e.content else none

def null : Element := ⟨Tag.null, []⟩

end SignedFirmware.Der
