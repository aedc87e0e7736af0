import SignedFirmware.Blob.Draft
import SignedFirmware.Blob.Signature
import SignedFirmware.Blob.Signers
import SignedFirmware.Host
import SignedFirmware.Trust.Verify

/-!
# What commands say about what they do

The messages that go with the operations on blobs. The operations say nothing themselves: what there
is to say follows from their inputs and results, and it is put together here, in the order in which
things happen.
-/

namespace SignedFirmware.Command.Narration

open X509 (Certificate)

/-- A message about a detail. -/
def trace (text : String) : Log.Entry := ⟨.trace, text⟩

/-- A message about a result. -/
def debug (text : String) : Log.Entry := ⟨.debug, text⟩

/-! ## Reading -/

def normalizing (data : Bytes) : List Log.Entry :=
  if data.length < Envelope.detectSize then []
  else if Envelope.isWrapped data then [trace "PKCS#7 data is already wrapped in ContentInfo"]
  else
    let n := data.length
    trace s!"Wrapping {n} byte bare SignedData in ContentInfo" ::
      if n ≤ Envelope.maxBareSize then
        let outer := n + (Envelope.headerSize - 4)
        [trace <| "Synthesizing ContentInfo header: RawHeader \x7b seq_len: " ++
          s!"{outer}, content_len: {n}, .. \x7d"]
      else []

def opening (info : Cms.ContentInfo) (padding : Bytes) : List Log.Entry :=
  let ignored :=
    if padding = [] then [] else [trace s!"Ignoring {padding.length} bytes after ContentInfo"]
  match Blob.openContentInfo info with
  | .error _ => ignored
  | .ok d =>
    let signers := d.signers.length
    let certificates := (d.certificates.getD []).length
    ignored ++
      [trace s!"Decoded SignedData with {signers} SignerInfos and {certificates} certificates"]

def reading (data : Bytes) : List Log.Entry :=
  match Blob.checkInput data with
  | .error _ => []
  | .ok () =>
    normalizing data ++
      match Blob.normalize data with
      | .error _ => []
      | .ok envelope =>
        match Blob.readContentInfo? envelope.bytes with
        | none => []
        | some (info, padding) => opening info padding

/-! ## Lists -/

def listing (certs : List Certificate) : List Log.Entry :=
  match Blob.listOf certs with
  | .ok (some list) =>
    let n := certs.length
    (if 255 < n then
      [⟨.warn, s!"Certificate count {n} does not fit in the count byte and will wrap to " ++
        s!"{list.count}"⟩]
    else []) ++ [trace s!"Serialized {n} certificates into {list.size} byte list"]
  | _ => []

def signers (data : Bytes) : List Log.Entry :=
  reading data ++
    match Blob.read data >>= fun d ↦ d.signerCertificates with
    | .error _ => []
    | .ok certs =>
      listing certs.reverse ++ [debug s!"Extracted {certs.length} signer certificates"]

/-- How a chain is climbed: each issuer, and why there is none above the last certificate. -/
def climbing (chained : List Certificate) : List Log.Entry :=
  (chained.tail.map fun c ↦ trace s!"Chained {c.describe}") ++
    match chained.getLast? with
    | none => []
    | some last =>
      if last.IsSelfIssued then [trace s!"Chain ends at self-issued {last.describe}"]
      else [trace s!"No issuer for {last.describe} in embedded certificates"]

def chain (data : Bytes) : List Log.Entry :=
  reading data ++
    match Blob.read data >>= Blob.chainOf with
    | .error _ => []
    | .ok c =>
      let chained := c.chained.length
      let unchained := c.unchained.length
      climbing c.chained ++
        [debug s!"Built chain of {chained} certificates with {unchained} left unchained"] ++
        listing c.chained ++ listing c.unchained

def signature (data : Bytes) : List Log.Entry :=
  reading data ++
    match Blob.signature data with
    | .error _ => []
    | .ok s => [trace s!"SignerInfo signature is {s.length} bytes"]

def signing (d : Blob.Draft) : List Log.Entry :=
  match d.encapsulated, d.signers.mapM fun s ↦ s.sign d.content with
  | .ok _, .ok signers =>
    let size := d.content.length
    let certificates := d.certificates.length
    [debug s!"Signed {size} bytes with {signers.length} signers and {certificates} certificates"]
  | _, _ => []

/-! ## Verification -/

/-- How an issuer was looked for: the candidates that did not fit. -/
def searching (s : Trust.Chain.Search) : List Log.Entry :=
  s.rejected.map fun (candidate, e) ↦
    trace s!"Rejected issuer candidate {candidate.describe}: {e.message}"

/-- How a walk went from certificate to certificate. -/
def steps : List Certificate → List Trust.Chain.Search → List Log.Entry
  | cert :: issuer :: rest, s :: searches =>
    searching s ++ trace s!"{cert.describe} issued by {issuer.describe}" ::
      steps (issuer :: rest) searches
  | _, s :: _ => searching s
  | _, [] => []

/-- How a walk went, and where it ended. -/
def walking (w : Trust.Chain.Walk) : List Log.Entry :=
  steps w.path w.searches ++
    match w.outcome, w.path.getLast? with
    | .ok (), some anchor => [trace s!"Chain anchored at trusted {anchor.describe}"]
    | _, _ => []

/-- The messages on items up to the first that fails, and whether none does. -/
def untilFailure {α : Type} (texts : α → List Log.Entry) (holds : α → Bool) :
    List α → List Log.Entry × Bool
  | [] => ([], true)
  | x :: rest =>
    if holds x then
      let (more, all) := untilFailure texts holds rest
      (texts x ++ more, all)
    else (texts x, false)

/-- How the chain of a certificate is looked for. -/
def chaining (s : Trust.Chain.Setting) (d : Cms.SignedData) (cert : Certificate) :
    List Log.Entry :=
  match Trust.checkPurpose cert s.policy.purpose with
  | .error _ => []
  | .ok () => walking (Trust.Chain.walkFrom s cert d.standardCertificates)

/-- How a signature is checked. -/
def checking (content : Bytes) :
    (Cms.SignerInfo × Certificate) × Nat → List Log.Entry
  | ((signer, cert), position) =>
    match Trust.verifySigner position signer cert content, Trust.signerDigest signer with
    | .ok (), .ok digest =>
      [trace s!"SignerInfo #{position} signed by {cert.describe} with {digest.name}"]
    | _, _ => []

/-- How signed data is verified. The identifiers of digests are put into a table when the first
signature is checked. -/
def verifying (s : Trust.Chain.Setting) (d : Cms.SignedData) (content : Bytes) :
    List Log.Entry :=
  match d.signerCertificates with
  | .error _ => []
  | .ok certs =>
    let (chains, trusted) := untilFailure (chaining s d)
      (fun c ↦ (Trust.Chain.verify s c d.standardCertificates).isOk) certs
    let (signatures, valid) := untilFailure (checking content)
      (fun ((signer, cert), position) ↦
        (Trust.verifySigner position signer cert content).isOk) (Trust.withCertificates d certs)
    let n := Digest.registry.length
    if trusted then
      chains ++ [trace s!"Registered {n} digest algorithm identifiers"] ++ signatures ++
        if valid then [debug s!"Verified {certs.length} signers"] else []
    else chains

end SignedFirmware.Command.Narration
