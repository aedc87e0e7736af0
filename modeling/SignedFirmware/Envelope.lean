import SignedFirmware.Bytes

/-!
# The outer envelope of a signature blob

A signed payload carries its `SignedData` either bare or inside a `ContentInfo`. Everything after
this module works on the second form, so a bare structure gets a fixed header of 19 bytes:

* `30 82` and two length bytes: a sequence of all that follows;
* `06 09` and nine bytes: the identifier 1.2.840.113549.1.7.2 of signed data;
* `a0 82` and two length bytes: the content, which is the bare structure.

Which of the two forms an input has is read off fixed positions; it is not a parse. Both lengths
have exactly two bytes, which bounds the size of a structure that can be wrapped.
-/

namespace SignedFirmware

namespace Envelope

/-- The content octets of the object identifier of signed data. -/
def signedDataOid : Bytes := [0x2a, 0x86, 0x48, 0x86, 0xf7, 0x0d, 0x01, 0x07, 0x02]

/-- The number of bytes that the header of a wrapped structure takes. -/
def headerSize : Nat := 19

/-- The number of bytes that are looked at to tell the two forms apart. -/
def detectSize : Nat := 17

/-- The largest bare structure whose two lengths fit into 16 bits. -/
def maxBareSize : Nat := 65535 - headerSize

/-- Why an input has no wrapped form. -/
inductive Error where
  /-- There are too few bytes to tell which form this is. -/
  | tooShort (size : Nat)
  /-- The lengths of the header cannot hold the size. -/
  | tooLarge (size : Nat)
  deriving DecidableEq, Repr

def Error.message : Error → String
  | .tooShort n => s!"PKCS#7 data is too short to classify: {n} < {detectSize} bytes"
  | .tooLarge n => s!"Bare SignedData is too large to wrap: {n} > {maxBareSize} bytes"

/-- Whether the bytes already begin like a wrapped structure. The first four bytes, which hold the
outer tag and length, are not looked at. -/
def isWrapped (data : Bytes) : Bool :=
  detectSize ≤ data.length &&
    (data.drop 4).take 13 == [0x06, 0x09] ++ signedDataOid ++ [0xa0, 0x82]

/-- The header in front of a bare structure of the given size. -/
def header (size : Nat) : Bytes :=
  [0x30, 0x82] ++ Bytes.ofNatBE 2 (size + (headerSize - 4)) ++ [0x06, 0x09] ++ signedDataOid
    ++ [0xa0, 0x82] ++ Bytes.ofNatBE 2 size

@[simp] theorem length_header (size : Nat) : (header size).length = headerSize := by
  simp [header, signedDataOid, headerSize]

/-- Puts the header in front of a bare structure. -/
def wrap (data : Bytes) : Except Error Bytes :=
  if data.length ≤ maxBareSize then .ok (header data.length ++ data)
  else .error (.tooLarge data.length)

end Envelope

/-- A signature blob in wrapped form, and whether it came that way. -/
structure Envelope where
  /-- Whether the input was wrapped already. -/
  wasWrapped : Bool
  bytes : Bytes
  deriving DecidableEq, Repr

namespace Envelope

/-- The wrapped form of an input of either form. Input that is too short to tell the forms apart
is refused. -/
def normalize (data : Bytes) : Except Error Envelope :=
  if data.length < detectSize then .error (.tooShort data.length)
  else if isWrapped data then .ok ⟨true, data⟩
  else (wrap data).map fun bytes ↦ ⟨false, bytes⟩

def summary (e : Envelope) : String :=
  s!"Envelope \x7b was_wrapped: {e.wasWrapped}, len: {e.bytes.length} \x7d"

end Envelope

end SignedFirmware
