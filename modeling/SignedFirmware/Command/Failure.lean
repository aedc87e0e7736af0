import SignedFirmware.Config

/-!
# Failures of commands

Why a command failed: what it was doing, with which file, and the failure behind that.
-/

namespace SignedFirmware.Command

/-- Why a command failed. -/
inductive Failure where
  | config (cause : Config.Error)
  /-- There is no such input. -/
  | statInput (path : String)
  | inputLimit (limit : Nat) (path : String)
  | readInput (path : String)
  | writeOutput (path : String)
  | normalize (path : String) (cause : Envelope.Error)
  | signers (path : String) (cause : Blob.Error)
  | chain (path : String) (cause : Blob.Error)
  | blob (path : String) (cause : Blob.Error)
  | trustedCertificate (path : String) (cause : Blob.Error)
  /-- The content travels apart, and no file with it was named. -/
  | detached
  | verification (path : String) (cause : Blob.Error)
  | signature (path : String) (cause : Blob.Error)
  | certList (path : String) (cause : CertList.Error)
  | key (path : String) (cause : Credential.Error)
  | certificate (path : String) (cause : Credential.Error)
  /-- The certificate holds no key that could be compared. -/
  | publicKey (cause : Credential.Error)
  /-- The certificate holds another key. -/
  | keyMismatch
  | sign (cause : Blob.Error)
  | generateKey (cause : Credential.Error)
  | writeKey (path : String) (cause : Credential.Error)
  | issuerKey (path : String) (cause : Credential.Error)
  | issuerCertificate (path : String) (cause : Credential.Error)
  /-- The certificate of the issuer holds another key. -/
  | issuerMismatch
  | validity (cause : Credential.Error)
  /-- The seconds of the validity do not fit into 64 bits. A build with overflow checks breaks off
  there. -/
  | productRange
  /-- The clock does not reach the end of the validity. Every build breaks off there. -/
  | clockRange
  | generateCertificate (cause : Credential.Error)
  | writeCertificate (path : String) (cause : Credential.Error)
  deriving DecidableEq, Repr

namespace Failure

/-- A failure on a blob in words, with the one behind it. -/
def blobTexts (e : Blob.Error) : List String := e.message :: e.cause?.toList

/-- A failure in words, with those behind it. -/
def texts : Failure → List String
  | config e => ["Failed to load config", e.message]
  | statInput path => [s!"Failed to stat file: {Text.quoted path}"]
  | inputLimit limit path => [s!"File exceeds {limit} byte limit: {Text.quoted path}"]
  | readInput path => [s!"Failed to read file: {Text.quoted path}"]
  | writeOutput path => [s!"Failed to write file: {Text.quoted path}"]
  | normalize path e => [s!"Failed to normalize: {Text.quoted path}", e.message]
  | signers path e => s!"Failed to extract signers: {Text.quoted path}" :: blobTexts e
  | chain path e => s!"Failed to extract certificate chain: {Text.quoted path}" :: blobTexts e
  | blob path e => s!"Failed to decode PKCS#7: {Text.quoted path}" :: blobTexts e
  | trustedCertificate path e =>
    s!"Failed to load trusted certificate: {Text.quoted path}" :: blobTexts e
  | detached => ["SignedData is detached; specify --content"]
  | verification path e => s!"Verification failed: {Text.quoted path}" :: blobTexts e
  | signature path e => s!"Failed to extract signature: {Text.quoted path}" :: blobTexts e
  | certList path e => [s!"Failed to parse certificate list: {Text.quoted path}", e.message]
  | key path e => [s!"Failed to load key: {Text.quoted path}", e.message]
  | certificate path e => [s!"Failed to load certificate: {Text.quoted path}", e.message]
  | publicKey e => [e.message]
  | keyMismatch => ["Private key and certificate do not match"]
  | sign e => "Failed to create SignedData" :: blobTexts e
  | generateKey e => ["Failed to generate RSA keypair", e.message]
  | writeKey path e => [s!"Failed to write private key: {Text.quoted path}", e.message]
  | issuerKey path e => [s!"Failed to load issuer key: {Text.quoted path}", e.message]
  | issuerCertificate path e =>
    [s!"Failed to load issuer certificate: {Text.quoted path}", e.message]
  | issuerMismatch => ["Issuer key and certificate do not match"]
  | validity e => ["Failed to compute validity period", e.message]
  | productRange => ["attempt to multiply with overflow"]
  | clockRange => ["overflow when adding duration to `SystemTime`"]
  | generateCertificate e => ["Failed to generate certificate", e.message]
  | writeCertificate path e => [s!"Failed to write certificate: {Text.quoted path}", e.message]

/-- Whether the program breaks off in the middle of a computation. A command that fails has told
why, and this one has not. -/
def isCrash : Failure → Bool
  | productRange | clockRange => true
  | _ => false

def message (f : Failure) : String := f.texts.headD ""

def causes (f : Failure) : List String := f.texts.tail

/-- The lines about the failures behind a failure. They are numbered if there are several. -/
def causeLines : List String → List String
  | [] => []
  | [cause] => ["", "Caused by:", s!"    {cause}"]
  | causes => ["", "Caused by:"] ++ causes.zipIdx.map fun (cause, i) ↦ s!"    {i}: {cause}"

/-- A failure in words together with those behind it. -/
def report (f : Failure) : String := "\n".intercalate (f.message :: causeLines f.causes)

end Failure

end SignedFirmware.Command
