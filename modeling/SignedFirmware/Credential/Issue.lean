import SignedFirmware.Credential.Error
import SignedFirmware.Rsa.Signature
import SignedFirmware.X509.Extension

/-!
# New certificates

A new certificate is a root that signs itself, or it is issued by another one, and then it is an
authority of its own or a leaf. The extensions that a certificate gets follow from that.
-/

namespace SignedFirmware.Credential

open X509

/-- Who signs a new certificate. -/
structure Issuer where
  key : Rsa.PrivateKey
  certificate : Certificate

/-- What a new certificate is for. -/
inductive Role where
  /-- An authority that signs itself. -/
  | root
  /-- An authority below another one. -/
  | authority
  /-- A certificate that signs data and no certificates. -/
  | leaf
  deriving DecidableEq, Repr

namespace Role

def isCa : Role → Bool
  | .root | .authority => true
  | .leaf => false

def keyUsage (r : Role) : KeyUsage := if r.isCa then .certSign else .dataSign

end Role

/-- The role of a certificate with the given issuer. -/
def roleOf (issuer : Option Issuer) (ca : Bool) : Role :=
  match issuer with
  | none => .root
  | some _ => if ca then .authority else .leaf

/-- The identifier of a key: the SHA-1 digest of its bits. -/
def keyIdentifier (k : PublicKeyInfo) : Bytes := Digest.Algorithm.sha1.hash k.key.octets

def newExtensions (role : Role) (key signer : PublicKeyInfo) : List Extension :=
  let sequence := Der.Element.ofElements Der.Tag.sequence
  [⟨Extension.subjectKeyIdentifier, false, (Der.ofOctets (keyIdentifier key)).encode⟩] ++
    (if role = .root then []
      else [⟨Extension.authorityKeyIdentifier, false,
        (sequence [⟨Der.Tag.contextPlain 0, keyIdentifier signer⟩]).encode⟩]) ++
    [⟨Extension.basicConstraints, true, (BasicConstraints.toElement ⟨role.isCa, none⟩).encode⟩,
      ⟨Extension.keyUsage, true, (Der.ofBitString role.keyUsage.bits).encode⟩]

def signingAlgorithm : AlgorithmId := .withNull Digest.Algorithm.sha256.rsaOid

/-- The validity between two times, given in seconds since the start of 1970. Only times that have a
spelling with two digits of the year will do. -/
def validityBetween (notBefore notAfter : Int) : Except Error Validity :=
  match Time.utcOfUnix? notBefore, Time.utcOfUnix? notAfter with
  | some notBefore, some notAfter => .ok ⟨notBefore, notAfter⟩
  | _, _ => .error .certificateFields

/-- The validity from now on for a number of seconds. -/
def validityFor (now : Instant) (seconds : Nat) : Except Error Validity :=
  match Time.ofInstant? now, Time.ofInstant? (now.later seconds) with
  | some notBefore, some notAfter => .ok ⟨notBefore, notAfter⟩
  | _, _ => .error .certificateFields

def issue (key : Rsa.PrivateKey) (issuer : Option Issuer) (serial : Nat) (validity : Validity)
    (subject : String) (ca : Bool) : Except Error Certificate :=
  match Name.parse? subject with
  | none => .error .certificateFields
  | some subject =>
    let role := roleOf issuer ca
    let signer := (issuer.map Issuer.key).getD key
    let publicKey := key.publicKey.toInfo
    let tbs : TbsCertificate :=
      { version := .v3
        serial := Der.natContent serial
        signature := signingAlgorithm
        issuer := (issuer.map fun i ↦ i.certificate.subject).getD subject
        validity, subject, publicKey
        issuerUniqueId := none
        subjectUniqueId := none
        extensions := some (newExtensions role publicKey signer.publicKey.toInfo) }
    -- fields without an encoding and a key that signs nothing fail alike
    let signature := tbs.toElement.encode?.bind fun bytes ↦
      signer.sign? .sha256 (Digest.Algorithm.sha256.hash bytes)
    match signature with
    | some signature => .ok ⟨tbs, signingAlgorithm, ⟨0, signature⟩⟩
    | none => .error .generateCertificate

end SignedFirmware.Credential
