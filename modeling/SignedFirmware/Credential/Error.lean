import SignedFirmware.Digest
import SignedFirmware.Text.Quoted

/-!
# Failures of the operations on keys and certificates

Everything that can go wrong with a credential: with a key, a certificate, the file of one of them,
or a passphrase.
-/

namespace SignedFirmware.Credential

/-- Why an operation on a key or a certificate failed. -/
inductive Error where
  /-- New signatures may not use this digest. -/
  | weakDigest (digest : Digest.Algorithm)
  /-- The modulus has too many bytes. -/
  | keySize (size : Nat)
  /-- The digest does not have the size that its algorithm gives. -/
  | digestSize (size : Nat) (digest : Digest.Algorithm)
  | unsetVariable (name : String)
  /-- The text form of a certificate begins and never ends. -/
  | unfinishedPem
  /-- The encrypted private key does not read, perhaps for a wrong passphrase. -/
  | loadEncryptedKey
  | loadKey
  | saveEncryptedKey
  | saveKey
  /-- The public key of a certificate is none that this library works with. -/
  | loadPublicKey
  | loadCertificate
  /-- There is no key of the wanted size. -/
  | generateKey
  | sign
  /-- The signature is not that of the digest. -/
  | verify
  | generateCertificate
  /-- A field of the certificate cannot have the wanted value. -/
  | certificateFields
  /-- The file does not read, or is no text. -/
  | unreadable (path : String)
  | unwritable (path : String)
  deriving DecidableEq, Repr

def Error.message : Error → String
  | .weakDigest d => s!"Digest algorithm not supported for signing: {d.name}"
  | .keySize n => s!"RSA key size ({n * 8}) not supported"
  | .digestSize n d => s!"Invalid digest length ({n} bytes) for {d.name}"
  | .unsetVariable name => s!"Failed to read environment variable: {Text.quoted name}"
  | .unfinishedPem => "PEM has start tag, but no end tag"
  | .loadEncryptedKey => "Failed to load encrypted RSA private key"
  | .loadKey => "Failed to load unencrypted RSA private key"
  | .saveEncryptedKey => "Failed to save encrypted RSA private key"
  | .saveKey => "Failed to save unencrypted RSA private key"
  | .loadPublicKey => "Failed to load RSA public key"
  | .loadCertificate => "Failed to load X509 certificate"
  | .generateKey => "Failed to generate RSA key"
  | .sign => "Failed to RSA sign digest"
  | .verify => "Failed to RSA verify signature"
  | .generateCertificate => "Failed to generate X509 certificate"
  | .certificateFields => "Invalid parameters for X509 certificate generation"
  | .unreadable path => s!"Failed to read file: {Text.quoted path}"
  | .unwritable path => s!"Failed to write file: {Text.quoted path}"

end SignedFirmware.Credential
