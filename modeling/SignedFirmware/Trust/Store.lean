import SignedFirmware.Blob.Read

/-!
# Trusted certificates

The certificates that are trusted for the time of one verification, in the order in which they were
added. A certificate is trusted if it equals one of them in every field.
-/

namespace SignedFirmware.Trust

structure Store where
  /-- The certificates, in the order in which they were added. -/
  certs : List X509.Certificate := []
  deriving DecidableEq, Repr

namespace Store

/-- The store with nothing but one encoded certificate. -/
def ofBytes (data : Bytes) : Except Blob.Error Store := do
  let c ← Blob.readCertificate data
  pure ⟨[c]⟩

def add (s : Store) (c : X509.Certificate) : Store := ⟨s.certs ++ [c]⟩

def size (s : Store) : Nat := s.certs.length

/-- Whether a certificate is trusted. -/
def contains (s : Store) (c : X509.Certificate) : Bool := s.certs.contains c

end Store

end SignedFirmware.Trust
