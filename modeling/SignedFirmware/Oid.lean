import SignedFirmware.Bytes

/-!
# Object identifiers

An object identifier is a path of numbers, its arcs. It is kept as the content octets of its
encoding: one octet for the first two arcs, then each further arc in groups of seven bits, where
every group but an arc's last one has its high bit set. `Oid.ofContent?` says which octets are
accepted, `Oid.arcs` reads the path back, and `Oid.parse?` reads the dotted form.
-/

namespace SignedFirmware

/-- An object identifier, by the content octets of its encoding. -/
structure Oid where
  content : Bytes
  deriving DecidableEq, Repr, Inhabited

namespace Oid

/-- The most content octets that an identifier may have. -/
def maxSize : Nat := 39

/-- Arcs are numbers below this. -/
def arcLimit : Nat := 0x100000000

/-! ## Reading -/

/-- Whether the octets are whole arcs. `used` is the number of octets of the current arc so far:
from the fifth on, an octet may hold no more than four bits, so an arc has at most five. -/
def wellFormedArcs (used : Nat) : Bytes → Bool
  | [] => used == 0
  | x :: rest =>
    if 4 ≤ used ∧ x &&& 0xf0 ≠ 0 then false
    else wellFormedArcs (if x &&& 0x80 = 0 then 0 else used + 1) rest

/-- The identifier with the given content octets. There are 3 to 39 of them, the first names one of
the roots 0, 1 and 2 and a second arc below 40, and the others are whole arcs. -/
def ofContent? (content : Bytes) : Option Oid :=
  match content with
  | [] => none
  | first :: rest =>
    if 3 ≤ content.length ∧ content.length ≤ maxSize ∧ first < 120 ∧ wellFormedArcs 0 rest then
      some ⟨content⟩
    else
      none

/-- The arcs that the octets after the first one spell. `n` is the current arc so far. -/
def tailArcs (n : Nat) : Bytes → List Nat
  | [] => []
  | x :: rest =>
    let n := (n * 128 + x.toNat % 128) % arcLimit
    if x &&& 0x80 = 0 then n :: tailArcs 0 rest else tailArcs n rest

/-- The path. -/
def arcs (o : Oid) : List Nat :=
  match o.content with
  | [] => []
  | first :: rest => first.toNat / 40 :: first.toNat % 40 :: tailArcs 0 rest

def toDotted (o : Oid) : String := ".".intercalate (o.arcs.map toString)

instance : ToString Oid := ⟨toDotted⟩

/-! ## Writing -/

/-- An arc in groups of seven bits. -/
def arcContent (n : Nat) : Bytes :=
  go (n / 128) [UInt8.ofNat (n % 128)]
where
  /-- Puts the groups of `n`, all with the high bit, in front of `acc`. -/
  go (n : Nat) (acc : Bytes) : Bytes :=
    if _h : n = 0 then acc else go (n / 128) (UInt8.ofNat (n % 128 + 128) :: acc)
  termination_by n
  decreasing_by omega

/-- The identifier with the given path: at least three arcs, the first at most 2 and the second at
most 39, and not too many octets. -/
def ofArcs? : List Nat → Option Oid
  | first :: second :: third :: more =>
    let content := UInt8.ofNat (40 * first + second) :: (third :: more).flatMap arcContent
    if first ≤ 2 ∧ second ≤ 39 ∧ content.length ≤ maxSize then some ⟨content⟩ else none
  | _ => none

/-- The arcs of a dotted path; `n` is the current arc so far. Two dots in a row have the arc 0
between them, and an arc wraps where it passes its limit. -/
def dottedArcs (n : Nat) : List Char → Option (List Nat)
  | [] => some [n]
  | '.' :: [] => none
  | '.' :: rest => (dottedArcs 0 rest).map (n :: ·)
  | c :: rest =>
    if c.isDigit then dottedArcs ((n * 10 + (c.toNat - '0'.toNat)) % arcLimit) rest else none

/-- Reads the dotted form. It starts with a digit. -/
def parse? (s : String) : Option Oid :=
  match s.toList with
  | c :: rest => if c.isDigit then (dottedArcs 0 (c :: rest)).bind ofArcs? else none
  | [] => none

end Oid

end SignedFirmware
