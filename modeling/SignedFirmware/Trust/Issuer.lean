import SignedFirmware.Credential.Key
import SignedFirmware.Trust.Store

/-!
# Checks on the certificates of a chain

The checks that a chain is made of, each on one certificate or on a certificate and its issuer:
whether the issuer signed it, whether the issuer may sign certificates, whether all critical
extensions are understood, whether the time is right, and whether the purpose is.
-/

namespace SignedFirmware.Trust

open X509 (Certificate)
open Blob (Error)

/-- The value of an extension of a certificate, if it has one. -/
def extension {α : Type} (c : Certificate) (id : Oid) (decode : Der.Decoder α) :
    Except Error (Option α) :=
  match c.extensionValue? id decode with
  | none => .ok none
  | some (some a) => .ok (some a)
  | some none => .error (.extension id c.subject)

def publicKey (c : Certificate) : Except Error Rsa.PublicKey :=
  (Credential.publicKey c).mapError (.publicKey c.subject)

/-- Checks that one certificate was signed with the key of another. The algorithm is that outside
the signed part. -/
def checkSignature (cert issuer : Certificate) : Except Error Unit := do
  let algorithm := cert.signatureAlgorithm.oid
  match (SignatureScheme.ofOid? algorithm).bind SignatureScheme.digest? with
  | none => throw (.unsupportedSignature algorithm)
  | some digest =>
    -- encoding, signature and key each fail in their own way, and the first one to fail is told
    let bytes ← Blob.encoded "TBSCertificate" cert.tbs.toElement
    match cert.signature.wholeOctets? with
    | none => throw (.unsupportedSignature algorithm)
    | some signature =>
      let key ← publicKey issuer
      (Credential.verify key digest (digest.hash bytes) signature).mapError
        (.certificateSignatureInvalid cert.subject)

/-- Checks that the basic constraints of a certificate, if it has any, let it sign certificates with
the given number of intermediates between it and the end of the chain. Only roots of the first
version do without. -/
def checkConstraints (issuer : Certificate) (below : Nat) :
    Option X509.BasicConstraints → Except Error Unit
  | none =>
    if issuer.tbs.version = .v1 ∧ issuer.IsSelfIssued then .ok ()
    else .error (.notCa issuer.subject)
  | some constraints =>
    if constraints.isCa then
      match constraints.pathLength with
      | none => .ok ()
      | some limit =>
        if below ≤ limit then .ok () else .error (.pathTooLong issuer.subject limit)
    else .error (.notCa issuer.subject)

/-- Checks that the key usage of a certificate, if it has one, lets its key sign certificates. -/
def checkKeyUsage (issuer : Certificate) : Option X509.KeyUsage → Except Error Unit
  | none => .ok ()
  | some usage => if usage.keyCertSign then .ok () else .error (.notCa issuer.subject)

/-- Checks that a certificate may sign certificates, with the given number of intermediates between
it and the end of the chain. -/
def checkIssuer (issuer : Certificate) (below : Nat) : Except Error Unit := do
  let usage ← extension issuer X509.Extension.keyUsage X509.KeyUsage.ofElement?
  checkKeyUsage issuer usage
  let constraints ←
    extension issuer X509.Extension.basicConstraints X509.BasicConstraints.ofElement?
  checkConstraints issuer below constraints

/-- The first critical extension that no check understands. -/
def unhandledExtension? (c : Certificate) : Option X509.Extension :=
  (c.tbs.extensions.getD []).find? fun x ↦ x.critical && !X509.Extension.handled.contains x.id

/-- Checks that all critical extensions are understood. -/
def checkExtensions (c : Certificate) : Except Error Unit :=
  match unhandledExtension? c with
  | none => .ok ()
  | some x => .error (.unhandledExtension x.id c.subject)

/-- Checks that a certificate holds at a given time. -/
def checkTime (c : Certificate) (now : Instant) : Except Error Unit :=
  let start := Instant.ofSeconds c.tbs.validity.notBefore.toUnix
  let stop := Instant.ofSeconds c.tbs.validity.notAfter.toUnix
  if now.nanoseconds < start.nanoseconds then .error (.notYetValid c.subject)
  else if stop.nanoseconds < now.nanoseconds then .error (.expired c.subject)
  else .ok ()

/-- Checks that a certificate allows a purpose. One that names no purposes allows all. -/
def checkPurpose (c : Certificate) (purpose : Purpose) : Except Error Unit :=
  match purpose.keyPurpose? with
  | none => .ok ()
  | some required => do
    match ← extension c X509.Extension.extendedKeyUsage X509.keyPurposes? with
    | none => pure ()
    | some purposes =>
      if purposes.any fun p ↦ p = required ∨ p = X509.anyPurpose then pure ()
      else throw (.purposeMismatch c.subject purpose)

end SignedFirmware.Trust
