import SignedFirmware.Blob.Read

/-!
# The signature of a blob

The bare signature of the single signer, which is what counter-signatures and time stamps are made
over. A caller who has a buffer first asks for the length and then for a copy.
-/

namespace SignedFirmware.Blob

def signature (data : Bytes) : Except Error Bytes := do
  let d ← read data
  let signer ← d.singleSigner
  pure signer.signature

/-- Puts bytes at the front of a buffer that has room for them. -/
def overwrite (source buffer : Bytes) : Except Error Bytes :=
  if source.length ≤ buffer.length then .ok (source ++ buffer.drop source.length)
  else .error (.bufferTooSmall source.length buffer.length)

/-- Copies the signature of the single signer to the front of a buffer, if there is one, and tells
its length. The buffer comes back as it is afterwards; after a failure it is as it was. -/
def copySignature (data : Bytes) (buffer : Option Bytes) : Except Error Nat × Option Bytes :=
  match signature data, buffer with
  | .error e, buffer => (.error e, buffer)
  | .ok s, none => (.ok s.length, none)
  | .ok s, some buffer =>
    match overwrite s buffer with
    | .error e => (.error e, some buffer)
    | .ok copy => (.ok s.length, some copy)

end SignedFirmware.Blob
