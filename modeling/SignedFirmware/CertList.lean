import SignedFirmware.Bytes

/-!
# Serialized certificate lists

A list of certificates is one count byte and then, for each certificate, a length of four bytes
(least significant first) and that many bytes. Nothing stands between the records or after the
last one. The count is the number of records modulo 256, so longer lists are allowed and wrap.

A list stays in its serialized form, since that is the form in which it is handed on. Three
operations have to agree on the format: `Builder.push` writes records, `CertList.ofBytes` checks
what others wrote, and `CertList.records` takes a list apart.
-/

namespace SignedFirmware

/-- A serialized list of encoded certificates. -/
structure CertList where
  /-- The number of certificates modulo 256. -/
  count : UInt8
  /-- The records, one after the other. -/
  body : Bytes
  deriving DecidableEq, Repr

namespace CertList

/-- The bytes that the length of a record takes. -/
def recordHeaderSize : Nat := 4

/-- Records are shorter than this. -/
def recordLimit : Nat := 0x100000000

/-- Why bytes are no list, or a certificate is no record. -/
inductive Error where
  /-- The length of the record does not fit into its field. -/
  | recordTooLarge (size : Nat)
  /-- There is not even a count. -/
  | empty
  /-- A record ends early; it starts at the given offset. -/
  | truncated (index offset : Nat)
  /-- The count is not the number of records modulo 256. -/
  | countMismatch (expected : UInt8) (actual : Nat)
  deriving DecidableEq, Repr

def Error.message : Error → String
  | .recordTooLarge n => s!"Certificate is too large for a list record: {n} bytes"
  | .empty => "Certificate list is empty"
  | .truncated index offset => s!"Record #{index} at offset {offset} is truncated"
  | .countMismatch expected actual =>
    s!"Expected {expected} certificates (mod 256), but found {actual}"

/-- One record: its length and its bytes. -/
def record (der : Bytes) : Bytes := Bytes.ofNatLE recordHeaderSize der.length ++ der

/-- Takes one record off the front. -/
def splitRecord? : Bytes → Option (Bytes × Bytes)
  | a :: b :: c :: d :: rest =>
    let size := Bytes.toNatLE [a, b, c, d]
    if size ≤ rest.length then some (rest.take size, rest.drop size) else none
  | _ => none

theorem length_lt_of_splitRecord? {data der rest : Bytes}
    (h : splitRecord? data = some (der, rest)) : rest.length < data.length := by
  unfold splitRecord? at h
  split at h
  · simp only [Option.ite_none_right_eq_some, Option.some.injEq, Prod.mk.injEq] at h
    obtain ⟨-, -, rfl⟩ := h
    simp only [List.length_drop, List.length_cons]
    omega
  · simp at h

def bytes (l : CertList) : Bytes := l.count :: l.body

def size (l : CertList) : Nat := l.bytes.length

/-! ## Taking a list apart -/

/-- The records at the front of `data`, up to the first place where none starts. -/
def splitRecords (data : Bytes) : List Bytes :=
  match _h : splitRecord? data with
  | none => []
  | some (der, rest) => der :: splitRecords rest
termination_by data.length
decreasing_by exact length_lt_of_splitRecord? _h

/-- The encoded certificates of a list, in order. -/
def records (l : CertList) : List Bytes := splitRecords l.body

/-- The number of records that fill `data`, which starts at `offset` with record `index`. -/
def countRecords (index offset : Nat) (data : Bytes) : Except Error Nat :=
  if data = [] then .ok index
  else
    match _h : splitRecord? data with
    | none => .error (.truncated index offset)
    | some (der, rest) => countRecords (index + 1) (offset + recordHeaderSize + der.length) rest
termination_by data.length
decreasing_by exact length_lt_of_splitRecord? _h

/-- Accepts a serialized list: records to the last byte, at least one of them, and their number
modulo 256 in front. -/
def ofBytes : Bytes → Except Error CertList
  | [] => .error .empty
  | count :: body => do
    let actual ← countRecords 0 1 body
    -- a count of zero may stand for 256 records, but not for none
    if actual = 0 ∨ UInt8.ofNat actual ≠ count then
      throw (.countMismatch count actual)
    else
      pure ⟨count, body⟩

def summary (l : CertList) : String :=
  s!"CertList \x7b count: {l.count}, size: {l.size} \x7d"

/-! ## Building a list -/

/-- A list in the making. -/
structure Builder where
  /-- What is written so far: nothing, or a placeholder for the count and the records. -/
  data : Bytes := []
  /-- The number of records so far. -/
  count : Nat := 0
  deriving DecidableEq, Repr

namespace Builder

/-- Appends an encoded certificate. A failure leaves the builder as it was. -/
def push (b : Builder) (der : Bytes) : Except Error Builder :=
  if der.length < recordLimit then
    .ok ⟨(if b.data = [] then [0] else b.data) ++ record der, b.count + 1⟩
  else
    .error (.recordTooLarge der.length)

/-- The list, unless nothing was appended. The count takes the place of the placeholder. -/
def finish (b : Builder) : Option CertList :=
  if b.count = 0 then none else some ⟨UInt8.ofNat b.count, b.data.tail⟩

def summary (b : Builder) : String :=
  s!"CertListBuilder \x7b count: {b.count}, size: {b.data.length}, .. \x7d"

end Builder

/-- The list of the given encoded certificates, in order. There is no list of none. -/
def ofDer (certs : List Bytes) : Except Error (Option CertList) :=
  (certs.foldlM Builder.push {}).map Builder.finish

end CertList

end SignedFirmware
