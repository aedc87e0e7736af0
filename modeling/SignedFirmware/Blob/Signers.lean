import SignedFirmware.Blob.Read

/-!
# Certificates taken out of a blob

The certificates of the signers, and the chain of issuers above a single signer. Nothing here
decides about trust: certificates are only put in order, and the chain goes by names alone.
-/

namespace SignedFirmware

open X509 (Certificate)

namespace Blob

def listOf (certs : List Certificate) : Except Error (Option CertList) :=
  (CertList.ofDer (certs.map Certificate.encode)).mapError .certList

/-! ## Signers -/

structure Signers where
  /-- All of them, the last signer first. -/
  list : CertList
  /-- The encoding of the certificate of the first signer, which is the last record of the list. -/
  trusted : Bytes
  deriving DecidableEq, Repr

def signers (data : Bytes) : Except Error Signers := do
  let d ← read data
  let certs ← d.signerCertificates
  match ← listOf certs.reverse with
  | none => throw .noSigners
  | some list =>
    match list.records.getLast? with
    | none => throw .noSigners
    | some trusted => pure ⟨list, trusted⟩

/-! ## The chain of a signer -/

/-- Whether a certificate has the subject that another one names as its issuer. -/
def issues (cert candidate : Certificate) : Bool := decide (candidate.subject = cert.issuer)

/-- The issuers above a certificate, each the first in the pool that is named, and what is left of
the pool. An issuer is taken out of the pool. A self-issued certificate has none above it. -/
def climb (cert : Certificate) (pool : List Certificate) : List Certificate × List Certificate :=
  if cert.IsSelfIssued then ([], pool)
  else
    match _h : pool.find? (issues cert) with
    | none => ([], pool)
    | some issuer =>
      let (above, rest) := climb issuer (pool.eraseP (issues cert))
      (issuer :: above, rest)
termination_by pool.length
decreasing_by
  have hmem := List.mem_of_find?_eq_some _h
  have := List.length_eraseP_of_mem hmem (List.find?_some _h)
  have := List.length_pos_of_mem hmem
  omega

/-- The certificates of a blob, taken apart. -/
structure Chain where
  /-- The certificate of the signer and the issuers above it. -/
  chained : List Certificate
  /-- All other certificates, in the order of the blob. -/
  unchained : List Certificate
  deriving DecidableEq, Repr

/-- The chain of the single signer of some signed data. -/
def chainOf (d : Cms.SignedData) : Except Error Chain := do
  let signer ← d.singleSigner
  let cert ← d.signerCertificate 0 signer
  -- the certificate of the signer is in the chain and must not be found as an issuer
  let pool := d.standardCertificates.eraseP fun c ↦ decide (signer.id.Matches c)
  let (above, rest) := climb cert pool
  pure ⟨cert :: above, rest⟩

/-- The serialized chain of the signer of a blob. Either list is absent if it would be empty. -/
structure ChainLists where
  chained : Option CertList
  unchained : Option CertList
  deriving DecidableEq, Repr

def chain (data : Bytes) : Except Error ChainLists := do
  let d ← read data
  let c ← chainOf d
  let chained ← listOf c.chained
  let unchained ← listOf c.unchained
  pure ⟨chained, unchained⟩

end Blob

end SignedFirmware
