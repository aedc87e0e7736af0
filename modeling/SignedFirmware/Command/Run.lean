import SignedFirmware.Command.Failure
import SignedFirmware.Command.Invocation
import SignedFirmware.Command.Narration
import SignedFirmware.Credential.Issue

/-!
# Running commands

What each command does: it reads its configuration and its files, calls the operation that it is
named for, and writes the results. The order of these steps decides which of two failures is told.
-/

namespace SignedFirmware.Command

variable {m : Type → Type} [Monad m] [Host m]

/-! ## Steps -/

/-- Goes on with a result, or fails with a reason made from what went wrong. -/
def orFail {ε α : Type} (reason : ε → Failure) (result : Except ε α) : ExceptT Failure m α :=
  ExceptT.mk (pure (result.mapError reason))

/-- Runs a step, and fails with a reason made from what went wrong. -/
def tryStep {ε α : Type} (reason : ε → Failure) (step : ExceptT ε m α) : ExceptT Failure m α :=
  ExceptT.mk do
    let result ← step.run
    pure (result.mapError reason)

/-- Tells the user what was done. -/
def status (text : String) : ExceptT Failure m Unit :=
  Host.print s!"\x1b[1m[*] {text}\x1b[0m"

def warning (text : String) : ExceptT Failure m Unit :=
  Host.print s!"\x1b[1;31m[WARNING] {text}\x1b[0m"

def loadConfig (path : Option String) : ExceptT Failure m Config := do
  let result ← Config.load path
  orFail .config result

/-- The bytes of an input file that is not too large. -/
def readInput (path : String) (limit : Nat) : ExceptT Failure m Bytes := do
  match ← Host.size path with
  | none => throw (.statInput path)
  | some size =>
    -- a file that is too large is not read at all
    if limit < size then throw (.inputLimit limit path)
    match ← Host.read path with
    | .error _ => throw (.readInput path)
    | .ok data => pure data

def writeOutput (path : String) (data : Bytes) : ExceptT Failure m Unit := do
  if !(← Host.write path data) then throw (.writeOutput path)

/-- Writes a list to a file, if a file was named and there is a list. -/
def writeList (path : Option String) (list : Option CertList) (name : String) :
    ExceptT Failure m Unit :=
  match path, list with
  | none, _ => pure ()
  | some path, some list => writeOutput path list.bytes
  | some path, none => warning s!"No {name} certificates; not writing {Text.quoted path}"

/-! ## Commands on blobs -/

/-- Brings a blob into wrapped form. -/
def wrap (config : Config) (input output : String) : ExceptT Failure m Unit := do
  let data ← readInput input config.maxInputSize
  narrate fun _ ↦ Narration.normalizing data
  let envelope ← orFail (.normalize input) (Envelope.normalize data)
  if envelope.wasWrapped then status "Input is already wrapped in ContentInfo"
  else status "Wrapped bare SignedData in ContentInfo"
  writeOutput output envelope.bytes

/-- Takes the certificates of the signers out of a blob. -/
def signers (config : Config) (input : String) (list cert : Option String) :
    ExceptT Failure m Unit := do
  let data ← readInput input config.maxInputSize
  narrate fun _ ↦ Narration.signers data
  let found ← orFail (.signers input) (Blob.signers data)
  status s!"Found {found.list.records.length} signer certificates"
  writeList list (some found.list) "signer"
  match cert with
  | none => pure ()
  | some path => writeOutput path found.trusted

/-- The number of certificates in a list that may be absent. -/
def sizeOf (list : Option CertList) : Nat := (list.map fun l ↦ l.records.length).getD 0

/-- Splits the certificates of a blob into the chain of the signer and the others. -/
def chain (config : Config) (input : String) (chained unchained : Option String) :
    ExceptT Failure m Unit := do
  let data ← readInput input config.maxInputSize
  narrate fun _ ↦ Narration.chain data
  let found ← orFail (.chain input) (Blob.chain data)
  status s!"Chain has {sizeOf found.chained} certificates; {sizeOf found.unchained} unchained"
  writeList chained found.chained "chained"
  writeList unchained found.unchained "unchained"

/-- The encoding of the certificate in a file of either form. -/
def readCertificate (path : String) : ExceptT Failure m X509.Certificate :=
  tryStep (.certificate path) (Credential.readCertificate path)

/-- The content that a blob is checked over: that of a file, or that in the blob. -/
def contentOf (config : Config) (d : Cms.SignedData) (content : Option String) :
    ExceptT Failure m Bytes :=
  match content, d.embeddedContent with
  | some path, _ => readInput path config.maxInputSize
  | none, some content => pure content
  | none, none => throw .detached

def verify (config : Config) (input trusted : String) (content : Option String) :
    ExceptT Failure m Unit := do
  let data ← readInput input config.maxInputSize
  let cert ← readCertificate trusted
  narrate fun _ ↦ Narration.reading data
  let d ← orFail (.blob input) (Blob.read data)
  -- the certificate is trusted as it is written anew, not as it stands in the file
  let store ← orFail (.trustedCertificate trusted) (Trust.Store.ofBytes cert.encode)
  let content ← contentOf config d content
  let setting : Trust.Chain.Setting := ⟨store, config.policy, ← Host.now⟩
  narrate fun _ ↦ Narration.verifying setting d content
  orFail (.verification input) (Trust.verify setting d content)
  status s!"Successfully verified {Text.quoted input}"

def signature (config : Config) (input output : String) : ExceptT Failure m Unit := do
  let data ← readInput input config.maxInputSize
  narrate fun _ ↦ Narration.signature data
  let s ← orFail (.signature input) (Blob.signature data)
  status s!"Signature is {s.length} bytes"
  writeOutput output s

/-- The lines about one certificate of a list. -/
def recordLines (position : Nat) (der : Bytes) : List String :=
  let fingerprint := Bytes.toHex (Digest.Algorithm.sha256.hash der)
  let about := match Der.readAll? X509.Certificate.ofElement? der with
    | some c => [s!"[{position}] Subject: {c.subject}", s!"    Issuer:  {c.issuer}"]
    | none => [s!"[{position}] Invalid certificate"]
  about ++ [s!"    SHA-256: {fingerprint}"]

/-- Shows the certificates of a list. -/
def dumpList (config : Config) (input : String) : ExceptT Failure m Unit := do
  let data ← readInput input config.maxInputSize
  let list ← orFail (.certList input) (CertList.ofBytes data)
  for (der, position) in list.records.zipIdx do
    (recordLines position der).forM Host.print

/-- Checks that a certificate holds the public half of a key. -/
def checkMatch (mismatch : Failure) (cert : X509.Certificate) (key : Rsa.PrivateKey) :
    ExceptT Failure m Unit := do
  let isMatch ← orFail .publicKey (Credential.matchesKey cert key)
  if !isMatch then throw mismatch

def sign (config : Config) (o : SignOptions) : ExceptT Failure m Unit := do
  let key ← tryStep (.key o.key) (Credential.readKey o.key o.passphrase)
  let cert ← readCertificate o.cert
  checkMatch .keyMismatch cert key
  let extra ← o.extraCerts.mapM readCertificate
  let content ← readInput o.input config.maxInputSize
  let draft : Blob.Draft :=
    { content, extra
      detached := o.isDetached
      signers := [⟨key, cert, o.digest, o.signsAttributes⟩] }
  narrate fun _ ↦ Narration.signing draft
  let blob ← orFail .sign (if o.isBare then draft.buildBare else draft.build)
  writeOutput o.output blob

/-! ## Commands on keys and certificates -/

def newKeyBits : Nat := 4096

def generateKey (output : String) (passphrase : Credential.PassphraseSource) :
    ExceptT Failure m Unit := do
  let seed ← Host.random 32
  let key ← orFail .generateKey (Credential.generateKey seed newKeyBits)
  tryStep (.writeKey output) (Credential.writeKey output key passphrase)

def readIssuer (o : IssuerOptions) : ExceptT Failure m Credential.Issuer := do
  let key ← tryStep (.issuerKey o.key) (Credential.readKey o.key o.passphrase)
  let certificate ← tryStep (.issuerCertificate o.cert) (Credential.readCertificate o.cert)
  checkMatch .issuerMismatch certificate key
  pure { key, certificate }

/-- The first number that does not fit into 64 bits. -/
def wordLimit : Nat := 0x10000000000000000

/-- The seconds of some days, as far as 64 bits hold them. This is what a build without overflow
checks goes on with, whatever the days are. One with overflow checks gets here only if nothing is
lost. -/
def secondsOfDays (days : Nat) : Nat := days * 86400 % wordLimit

/-- The last second that the clock reaches. -/
def lastSecond : Nat := 0x7fffffffffffffff

/-- The seconds of some days stop a build with overflow checks. -/
def StopsAt (overflow : Overflow) (days : Nat) : Prop :=
  overflow = .breaksOff ∧ wordLimit ≤ days * 86400

instance (overflow : Overflow) (days : Nat) : Decidable (StopsAt overflow days) :=
  inferInstanceAs (Decidable (_ ∧ _))

/-- The validity for some days, in a given build and from a given time on. -/
def validityIn (overflow : Overflow) (days : Nat) (now : Instant) : Except Failure X509.Validity :=
  if StopsAt overflow days then .error .productRange
  else if lastSecond < now.seconds + secondsOfDays days then .error .clockRange
  else (Credential.validityFor now (secondsOfDays days)).mapError .validity

def validityOf (days : Nat) : ExceptT Failure m X509.Validity := do
  let overflow ← Host.overflow
  let now ← Host.now
  ExceptT.mk (pure (validityIn overflow days now))

def generateCertificate (o : CertificateOptions) : ExceptT Failure m Unit := do
  let key ← tryStep (.key o.key) (Credential.readKey o.key o.passphrase)
  let issuer ← o.issuer.mapM readIssuer
  let validity ← validityOf o.validity
  let serial := Bytes.toNat (← Host.random 8)
  let cert ← orFail .generateCertificate
    (Credential.issue key issuer serial validity o.subject o.isCa)
  tryStep (.writeCertificate o.output) (Credential.writeCertificate o.output cert)

/-! ## All commands -/

/-- Does what a command line asks for. Keys and certificates are made without a configuration. -/
def run (i : Invocation) : ExceptT Failure m Unit :=
  match i.action with
  | .wrap input output => do wrap (← loadConfig i.config) input output
  | .signers input list cert => do signers (← loadConfig i.config) input list cert
  | .chain input chained unchained => do chain (← loadConfig i.config) input chained unchained
  | .verify input trusted content => do verify (← loadConfig i.config) input trusted content
  | .signature input output => do signature (← loadConfig i.config) input output
  | .dumpList input => do dumpList (← loadConfig i.config) input
  | .sign options => do sign (← loadConfig i.config) options
  | .generateKey output passphrase => generateKey output passphrase
  | .generateCertificate options => generateCertificate options

end SignedFirmware.Command
