import SignedFirmware.Credential.Certificate
import SignedFirmware.Host
import SignedFirmware.Key.PrivateKeyInfo

/-!
# Key and certificate files

Reading and writing the files of keys and certificates, and finding the passphrase for a key. A key
file is taken for an encrypted one if it holds the word for that anywhere.
-/

namespace SignedFirmware.Credential

variable {m : Type → Type} [Monad m] [Host m]

/-! ## Passphrases -/

/-- Where a passphrase comes from. -/
inductive PassphraseSource where
  | absent
  | fromVariable (name : String)
  | fromFile (path : String)
  deriving DecidableEq, Repr

namespace PassphraseSource

/-- The source that is named; a variable comes before a file. -/
def select (file name : Option String) : PassphraseSource :=
  match name, file with
  | some name, _ => .fromVariable name
  | none, some file => .fromFile file
  | none, none => .absent

end PassphraseSource

def readText (path : String) : ExceptT Error m String := do
  match ← Host.read path with
  | .error _ => throw (.unreadable path)
  | .ok data =>
    match Bytes.toText? data with
    | some text => pure text
    | none => throw (.unreadable path)

def trimLineEnds (s : String) : String :=
  String.ofList ((s.toList.reverse.dropWhile fun c ↦ c == '\r' || c == '\n').reverse)

def PassphraseSource.acquire : PassphraseSource → ExceptT Error m String
  | .absent => pure ""
  | .fromVariable name => do
    match ← Host.lookup name with
    | some value => pure value
    | none => throw (.unsetVariable name)
  | .fromFile path => do
    let text ← readText path
    pure (trimLineEnds text)

/-! ## Keys -/

/-- Whether a text holds a word somewhere. -/
def containsWord (w : Bytes) : Bytes → Bool
  | [] => w.isEmpty
  | x :: rest => w.isPrefixOf (x :: rest) || containsWord w rest

/-- Whether a key file is taken for an encrypted one. -/
def isEncrypted (text : Bytes) : Bool := containsWord (Bytes.ofString "ENCRYPTED") text

def parseKey (text : Bytes) : Except Error Rsa.PrivateKey :=
  match Key.ofPem? text with
  | some k => .ok k
  | none => .error .loadKey

def parseEncryptedKey (passphrase : String) (text : Bytes) : Except Error Rsa.PrivateKey :=
  match Key.ofEncryptedPem? (Bytes.ofString passphrase) text with
  | some k => .ok k
  | none => .error .loadEncryptedKey

/-- The private key in a file. The passphrase is only asked for if the key is encrypted. -/
def readKey (path : String) (source : PassphraseSource) : ExceptT Error m Rsa.PrivateKey := do
  let text ← readText path
  let data := Bytes.ofString text
  if isEncrypted data then
    let passphrase ← source.acquire
    ExceptT.mk (pure (parseEncryptedKey passphrase data))
  else
    ExceptT.mk (pure (parseKey data))

def writeFile (path : String) (data : Bytes) : ExceptT Error m Unit := do
  if !(← Host.write path data) then throw (.unwritable path)

/-- The text of a private key. It is encrypted if there is a passphrase. -/
def keyText (k : Rsa.PrivateKey) (passphrase : String) : ExceptT Error m Bytes := do
  if passphrase.isEmpty then
    match Key.toPem? k with
    | some text => pure text
    | none => throw .saveKey
  else
    let salt ← Host.random 16
    let iv ← Host.random Key.Aes.blockSize
    match Key.toEncryptedPem? (Bytes.ofString passphrase) salt iv k with
    | some text => pure text
    | none => throw .saveEncryptedKey

def writeKey (path : String) (k : Rsa.PrivateKey) (source : PassphraseSource) :
    ExceptT Error m Unit := do
  let passphrase ← source.acquire
  let text ← keyText k passphrase
  writeFile path text

/-! ## Certificates -/

def readCertificate (path : String) : ExceptT Error m X509.Certificate := do
  match ← Host.read path with
  | .error _ => throw (.unreadable path)
  | .ok data => ExceptT.mk (pure (parseCertificate data))

def writeCertificate (path : String) (c : X509.Certificate) : ExceptT Error m Unit :=
  writeFile path (certificateText c)

end SignedFirmware.Credential
