import SignedFirmware.Digest.Md5
import SignedFirmware.Digest.Sha1
import SignedFirmware.Digest.Sha2
import SignedFirmware.Oid

/-!
# Digest algorithms

The five digests that a signature may name, the identifiers under which they go, and the RSA
signature schemes that use them.
-/

namespace SignedFirmware

namespace Digest

/-- A digest that a signature may name. -/
inductive Algorithm where
  | md5
  | sha1
  | sha256
  | sha384
  | sha512
  deriving DecidableEq, Repr, Inhabited

namespace Algorithm

def all : List Algorithm := [.md5, .sha1, .sha256, .sha384, .sha512]

def name : Algorithm → String
  | .md5 => "Md5"
  | .sha1 => "Sha1"
  | .sha256 => "Sha256"
  | .sha384 => "Sha384"
  | .sha512 => "Sha512"

def oid : Algorithm → Oid
  | .md5 => ⟨[0x2a, 0x86, 0x48, 0x86, 0xf7, 0x0d, 0x02, 0x05]⟩
  | .sha1 => ⟨[0x2b, 0x0e, 0x03, 0x02, 0x1a]⟩
  | .sha256 => ⟨[0x60, 0x86, 0x48, 0x01, 0x65, 0x03, 0x04, 0x02, 0x01]⟩
  | .sha384 => ⟨[0x60, 0x86, 0x48, 0x01, 0x65, 0x03, 0x04, 0x02, 0x02]⟩
  | .sha512 => ⟨[0x60, 0x86, 0x48, 0x01, 0x65, 0x03, 0x04, 0x02, 0x03]⟩

/-- The identifier of the RSA signature scheme with this digest. -/
def rsaOid : Algorithm → Oid
  | .md5 => ⟨[0x2a, 0x86, 0x48, 0x86, 0xf7, 0x0d, 0x01, 0x01, 0x04]⟩
  | .sha1 => ⟨[0x2a, 0x86, 0x48, 0x86, 0xf7, 0x0d, 0x01, 0x01, 0x05]⟩
  | .sha256 => ⟨[0x2a, 0x86, 0x48, 0x86, 0xf7, 0x0d, 0x01, 0x01, 0x0b]⟩
  | .sha384 => ⟨[0x2a, 0x86, 0x48, 0x86, 0xf7, 0x0d, 0x01, 0x01, 0x0c]⟩
  | .sha512 => ⟨[0x2a, 0x86, 0x48, 0x86, 0xf7, 0x0d, 0x01, 0x01, 0x0d]⟩

def size : Algorithm → Nat
  | .md5 => 16
  | .sha1 => 20
  | .sha256 => 32
  | .sha384 => 48
  | .sha512 => 64

def hash : Algorithm → Bytes → Bytes
  | .md5 => Md5.md5
  | .sha1 => Sha1.sha1
  | .sha256 => Sha2.sha256
  | .sha384 => Sha2.sha384
  | .sha512 => Sha2.sha512

@[simp] theorem length_hash (a : Algorithm) (message : Bytes) :
    (a.hash message).length = a.size := by
  cases a <;> rfl

end Algorithm

/-- The identifiers under which a digest is known. Some signers name the signature scheme where
only the digest belongs; for SHA-1 that is accepted. -/
def registry : List (Oid × Algorithm) :=
  Algorithm.all.map (fun a ↦ (a.oid, a)) ++ [(Algorithm.sha1.rsaOid, .sha1)]

/-- The digest known under an identifier. -/
def Algorithm.ofOid? (o : Oid) : Option Algorithm := registry.lookup o

end Digest

/-! ## Signature schemes -/

/-- An RSA signature scheme: one whose digest is given elsewhere, or one that implies it. -/
inductive SignatureScheme where
  /-- Plain RSA encryption; the digest comes from elsewhere. -/
  | rsa
  | rsaWith (digest : Digest.Algorithm)
  deriving DecidableEq, Repr

namespace SignatureScheme

/-- The identifier of plain RSA encryption, which is also that of RSA keys. -/
def rsaEncryption : Oid := ⟨[0x2a, 0x86, 0x48, 0x86, 0xf7, 0x0d, 0x01, 0x01, 0x01]⟩

def ofOid? (o : Oid) : Option SignatureScheme :=
  if o = rsaEncryption then some .rsa
  else (Digest.Algorithm.all.find? (·.rsaOid = o)).map .rsaWith

/-- The digest that the scheme implies. -/
def digest? : SignatureScheme → Option Digest.Algorithm
  | .rsa => none
  | .rsaWith d => some d

end SignatureScheme

end SignedFirmware
