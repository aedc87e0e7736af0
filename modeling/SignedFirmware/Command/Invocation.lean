import SignedFirmware.Command.Options
import SignedFirmware.Credential.File

/-!
# The commands of the program

The description of the program's command line, and what a command line asks for once it has been
read.
-/

namespace SignedFirmware.Command

/-! ## Description -/

/-- The digests that can be chosen for new signatures. -/
def signingDigests : List (String × Digest.Algorithm) :=
  [("sha256", .sha256), ("sha384", .sha384), ("sha512", .sha512)]

/-- Options that every command has. -/
def globalOptions : List OptionSpec :=
  [{ name := "log-level", kind := .choice (Log.Level.all.map Log.Level.name) },
    { name := "log-format", kind := .choice (Log.Layout.all.map Log.Layout.name) },
    { name := "config", kind := .path }]

def requiredFile (name : String) (letter : Option Char) : OptionSpec :=
  { name, kind := .path, letter, isRequired := true }

def optionalFile (name : String) : OptionSpec := { name, kind := .path }

/-- The two ways to name a passphrase. -/
def passphraseOptions (start : String) : List OptionSpec :=
  [{ name := start ++ "pass-env-var", kind := .text, group := some (start ++ "pass") },
    { name := start ++ "pass-file", kind := .path, group := some (start ++ "pass") }]

/-- A command without others below it. -/
def leafCommand (name : String) (options : List OptionSpec) : CommandSpec :=
  .mk name (options ++ globalOptions) false []

def inputOption : OptionSpec := requiredFile "input" (some 'i')

def outputOption : OptionSpec := requiredFile "output" (some 'o')

def generateKeySpec : CommandSpec :=
  leafCommand "generate-key" (outputOption :: passphraseOptions "")

def generateCertificateSpec : CommandSpec :=
  leafCommand "generate-cert"
    ([requiredFile "key" (some 'k'), outputOption,
        { name := "subject", kind := .text, letter := some 's' },
        { name := "validity", kind := .number, letter := some 'v' },
        { name := "ca", kind := .flag },
        { name := "issuer-key", kind := .path, companion := some "issuer-cert" },
        { name := "issuer-cert", kind := .path, companion := some "issuer-key" }] ++
      passphraseOptions "" ++ passphraseOptions "issuer-")

def programSpec : CommandSpec :=
  .mk "fwpkcs7" globalOptions true
    [leafCommand "wrap" [inputOption, outputOption],
      leafCommand "signers" [inputOption, optionalFile "list", optionalFile "cert"],
      leafCommand "chain" [inputOption, optionalFile "chain", optionalFile "unchained"],
      leafCommand "verify"
        [inputOption, requiredFile "trusted" (some 't'),
          { name := "content", kind := .path, letter := some 'c' }],
      leafCommand "signature" [inputOption, outputOption],
      leafCommand "dump-list" [inputOption],
      leafCommand "sign"
        ([inputOption, requiredFile "key" (some 'k'), requiredFile "cert" (some 'c'), outputOption,
            { name := "extra-cert", kind := .path, isRepeatable := true },
            { name := "digest", kind := .choice (signingDigests.map Prod.fst) },
            { name := "detached", kind := .flag },
            { name := "no-signed-attrs", kind := .flag },
            { name := "bare", kind := .flag }] ++ passphraseOptions ""),
      .mk "key" globalOptions false [generateKeySpec, generateCertificateSpec]]

def versionLine : String := "fwpkcs7 0.4.1"

/-! ## Invocations -/

/-- What a new blob is made from. -/
structure SignOptions where
  input : String
  key : String
  passphrase : Credential.PassphraseSource
  cert : String
  extraCerts : List String
  digest : Digest.Algorithm
  isDetached : Bool
  signsAttributes : Bool
  isBare : Bool
  output : String
  deriving DecidableEq, Repr

structure IssuerOptions where
  key : String
  cert : String
  passphrase : Credential.PassphraseSource
  deriving DecidableEq, Repr

/-- What a new certificate is made from. -/
structure CertificateOptions where
  key : String
  passphrase : Credential.PassphraseSource
  issuer : Option IssuerOptions
  output : String
  subject : String
  /-- The number of days for which the certificate is valid. -/
  validity : Nat
  isCa : Bool
  deriving DecidableEq, Repr

/-- What is to be done. -/
inductive Action where
  | wrap (input output : String)
  | signers (input : String) (list cert : Option String)
  | chain (input : String) (chained unchained : Option String)
  | verify (input trusted : String) (content : Option String)
  | signature (input output : String)
  | dumpList (input : String)
  | sign (options : SignOptions)
  | generateKey (output : String) (passphrase : Credential.PassphraseSource)
  | generateCertificate (options : CertificateOptions)
  deriving DecidableEq, Repr

/-- What a command line asks for. -/
structure Invocation where
  filter : Log.Filter
  config : Option String
  action : Action
  deriving DecidableEq, Repr

/-! ## Reading -/

namespace Matches

def passphrase (m : Matches) (start : String) : Credential.PassphraseSource :=
  .select (m.value? (start ++ "pass-file")) (m.value? (start ++ "pass-env-var"))

def signOptions? (m : Matches) : Option SignOptions := do
  let input ← m.value? "input"
  let key ← m.value? "key"
  let cert ← m.value? "cert"
  let output ← m.value? "output"
  pure
    { input, key, cert, output
      passphrase := m.passphrase ""
      extraCerts := m.values "extra-cert"
      digest := ((m.value? "digest").bind fun v ↦ signingDigests.lookup v).getD .sha256
      isDetached := m.has "detached"
      signsAttributes := !m.has "no-signed-attrs"
      isBare := m.has "bare" }

def issuerOptions? (m : Matches) : Option IssuerOptions := do
  let key ← m.value? "issuer-key"
  let cert ← m.value? "issuer-cert"
  pure ⟨key, cert, m.passphrase "issuer-"⟩

def defaultSubject : String := "CN=fwpkcs7"

/-- The number of days for which new certificates are valid. -/
def defaultValidity : Nat := 10000

def certificateOptions? (m : Matches) : Option CertificateOptions := do
  let key ← m.value? "key"
  let output ← m.value? "output"
  pure
    { key, output
      passphrase := m.passphrase ""
      issuer := m.issuerOptions?
      subject := (m.value? "subject").getD defaultSubject
      validity := ((m.value? "validity").bind number?).getD defaultValidity
      isCa := m.has "ca" }

def action? (m : Matches) : Option Action :=
  match m.commands with
  | ["wrap"] => return .wrap (← m.value? "input") (← m.value? "output")
  | ["signers"] => return .signers (← m.value? "input") (m.value? "list") (m.value? "cert")
  | ["chain"] => return .chain (← m.value? "input") (m.value? "chain") (m.value? "unchained")
  | ["verify"] =>
    return .verify (← m.value? "input") (← m.value? "trusted") (m.value? "content")
  | ["signature"] => return .signature (← m.value? "input") (← m.value? "output")
  | ["dump-list"] => return .dumpList (← m.value? "input")
  | ["sign"] => m.signOptions?.map .sign
  | ["key", "generate-key"] => return .generateKey (← m.value? "output") (m.passphrase "")
  | ["key", "generate-cert"] => m.certificateOptions?.map .generateCertificate
  | _ => none

def logFilter (m : Matches) : Log.Filter :=
  { least := ((m.value? "log-level").bind fun v ↦ Log.Level.all.find? (·.name == v)).getD .info
    layout :=
      ((m.value? "log-format").bind fun v ↦ Log.Layout.all.find? (·.name == v)).getD .short }

end Matches

/-- What a command line asks for. -/
def Invocation.ofWords (words : List String) : Except UsageError Invocation := do
  let m ← readCommandLine programSpec words
  match m.action? with
  | some action => pure ⟨m.logFilter, m.value? "config", action⟩
  | none => throw .missingRequiredArgument

end SignedFirmware.Command
