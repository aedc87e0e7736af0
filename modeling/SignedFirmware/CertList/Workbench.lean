import SignedFirmware.CertList
import SignedFirmware.X509.Certificate

/-!
# The work of building a list

A `CertList.Builder` is a value, and a failed `push` simply gives no new one. The work behind it is
done in place, on a workbench: room is asked for, which may be refused, and bytes are written piece
by piece. A certificate is first encoded into a scratch buffer, which is used over and over. What
was done before a failure stays done. So the order of the steps matters: everything that can fail
comes before the first byte that is written to the list.
-/

namespace SignedFirmware.CertList

open X509 (Certificate)

/-- A builder at work. -/
structure Workbench extends Builder where
  /-- Where certificates are encoded. What is left there does not matter. -/
  scratch : Bytes := []
  deriving DecidableEq, Repr

namespace Workbench

/-- Why a call fails. -/
inductive Failure where
  /-- The bytes are no record. -/
  | list (cause : Error)
  /-- The certificate that would have got this index has no encoding. -/
  | encoding (index : Nat)
  /-- There is no room for so many more bytes. -/
  | memory (size : Nat)
  deriving DecidableEq, Repr

def Failure.message : Failure → String
  | list cause => cause.message
  | encoding index => s!"Failed to DER encode certificate #{index}"
  | memory size => s!"Failed to grow certificate list by {size} bytes"

/-- Steps on a workbench. A failure does not undo the steps before it. -/
abbrev Work := ExceptT Failure (StateM Workbench)

/-- Asks for room for more bytes. The answer is up to the surroundings. -/
def reserve (grants : Nat → Bool) (size : Nat) : Work Unit :=
  if grants size then pure () else throw (.memory size)

/-- The room that one more record takes. The first one takes a byte more, for the count. -/
def roomFor (data der : Bytes) : Nat :=
  (if data = [] then 1 else 0) + (recordHeaderSize + der.length)

def pushDer (grants : Nat → Bool) (der : Bytes) : Work Unit := do
  if recordLimit ≤ der.length then throw (.list (.recordTooLarge der.length))
  reserve grants (roomFor (← get).data der)
  -- nothing fails from here on
  modify fun w ↦ { w with data := if w.data = [] then [0] else w.data }
  modify fun w ↦ { w with data := w.data ++ Bytes.ofNatLE recordHeaderSize der.length }
  modify fun w ↦ { w with data := w.data ++ der }
  modify fun w ↦ { w with count := w.count + 1 }

def pushCertificate (grants : Nat → Bool) (cert : Certificate) : Work Unit := do
  let index := (← get).count
  let bytes := cert.encode
  if Der.maxLength < bytes.length then throw (.encoding index)
  -- the scratch buffer may hold an earlier certificate
  modify fun w ↦ { w with scratch := [] }
  reserve grants bytes.length
  modify fun w ↦ { w with scratch := w.scratch ++ bytes }
  pushDer grants (← get).scratch

/-! ## Calls -/

/-- What is appended. -/
inductive Item where
  /-- An encoded certificate, or any other bytes. -/
  | der (bytes : Bytes)
  /-- A certificate that is still to be encoded. -/
  | certificate (cert : Certificate)
  deriving DecidableEq, Repr

def Item.bytes : Item → Bytes
  | .der bytes => bytes
  | .certificate cert => cert.encode

/-- A call that appends something. -/
structure Call where
  item : Item
  /-- Which requests for room are granted during the call. -/
  grants : Nat → Bool := fun _ ↦ true

def Call.perform (c : Call) : Work Unit :=
  match c.item with
  | .der bytes => pushDer c.grants bytes
  | .certificate cert => pushCertificate c.grants cert

def outcome (w : Workbench) (c : Call) : Except Failure Unit := (c.perform.run.run w).1

def after (w : Workbench) (c : Call) : Workbench := (c.perform.run.run w).2

def run (w : Workbench) (calls : List Call) : Workbench := calls.foldl after w

end Workbench

end SignedFirmware.CertList
