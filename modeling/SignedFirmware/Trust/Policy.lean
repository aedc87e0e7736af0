import SignedFirmware.X509.Extension

/-!
# Policies

How strict a verification is. Firmware verifies early, when the clock of the platform cannot be
trusted and no purpose is enforced, so the default policy lets a chain end at any trusted
certificate, leaves periods unchecked and allows all purposes.
-/

namespace SignedFirmware.Trust

/-- The purpose that the certificate of a signer has to allow. -/
inductive Purpose where
  | any
  | smimeSign
  | codeSigning
  deriving DecidableEq, Repr, Inhabited

namespace Purpose

/-- The name as messages show it. -/
def name : Purpose → String
  | .any => "Any"
  | .smimeSign => "SmimeSign"
  | .codeSigning => "CodeSigning"

/-- The key purpose that has to be allowed, if any. -/
def keyPurpose? : Purpose → Option Oid
  | .any => none
  | .smimeSign => some X509.emailProtectionPurpose
  | .codeSigning => some X509.codeSigningPurpose

end Purpose

/-- How strict a verification is. -/
structure Policy where
  /-- Whether a chain may end at a trusted certificate with another issuer. -/
  partialChain : Bool := true
  /-- Whether periods go unchecked. -/
  ignoreTime : Bool := true
  purpose : Purpose := .any
  /-- The most certificates that a chain may have, that of the signer included. -/
  maxDepth : Nat := 100
  deriving DecidableEq, Repr

end SignedFirmware.Trust
