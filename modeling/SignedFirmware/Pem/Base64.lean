import SignedFirmware.Bytes

/-!
# Base64

Three bytes are written as four digits of six bits. At the end, one or two bytes are written as two
or three digits with zero bits behind them, and padded to four characters. Only what the writer
writes is read: the padding has to be there, and the bits behind the last byte have to be zero.
-/

namespace SignedFirmware.Pem.Base64

/-- The digit for a number below 64. -/
def digit (n : Nat) : UInt8 :=
  UInt8.ofNat <|
    if n < 26 then 0x41 + n
    else if n < 52 then 0x61 + (n - 26)
    else if n < 62 then 0x30 + (n - 52)
    else if n = 62 then 0x2b
    else 0x2f

def value? (c : UInt8) : Option Nat :=
  if 0x41 ≤ c ∧ c ≤ 0x5a then some (c.toNat - 0x41)
  else if 0x61 ≤ c ∧ c ≤ 0x7a then some (c.toNat - 0x61 + 26)
  else if 0x30 ≤ c ∧ c ≤ 0x39 then some (c.toNat - 0x30 + 52)
  else if c = 0x2b then some 62
  else if c = 0x2f then some 63
  else none

/-- The character that fills up the last four. -/
def padding : UInt8 := 0x3d

/-- The characters for a byte string. -/
def encode : Bytes → Bytes
  | [] => []
  | [a] => [digit (a.toNat / 4), digit (a.toNat % 4 * 16), padding, padding]
  | [a, b] =>
    [digit (a.toNat / 4), digit (a.toNat % 4 * 16 + b.toNat / 16), digit (b.toNat % 16 * 4),
      padding]
  | a :: b :: c :: rest =>
    digit (a.toNat / 4) :: digit (a.toNat % 4 * 16 + b.toNat / 16) ::
      digit (b.toNat % 16 * 4 + c.toNat / 64) :: digit (c.toNat % 64) :: encode rest

/-- The bytes of a last group of four characters. -/
def decodeLast? (w x y z : UInt8) : Option Bytes := do
  let a ← value? w
  let b ← value? x
  if y = padding then
    if z = padding ∧ b % 16 = 0 then some [UInt8.ofNat (a * 4 + b / 16)] else none
  else
    let c ← value? y
    if z = padding then
      if c % 4 = 0 then some [UInt8.ofNat (a * 4 + b / 16), UInt8.ofNat (b * 16 + c / 4)] else none
    else
      let d ← value? z
      some [UInt8.ofNat (a * 4 + b / 16), UInt8.ofNat (b * 16 + c / 4), UInt8.ofNat (c * 64 + d)]

/-- The byte string that the characters spell. -/
def decode? : Bytes → Option Bytes
  | [] => some []
  | [w, x, y, z] => decodeLast? w x y z
  | w :: x :: y :: z :: rest => do
    let a ← value? w
    let b ← value? x
    let c ← value? y
    let d ← value? z
    let more ← decode? rest
    pure (UInt8.ofNat (a * 4 + b / 16) :: UInt8.ofNat (b * 16 + c / 4) ::
      UInt8.ofNat (c * 64 + d) :: more)
  | _ => none

end SignedFirmware.Pem.Base64
