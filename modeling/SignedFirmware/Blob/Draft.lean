import SignedFirmware.Blob.Read
import SignedFirmware.Credential.Key

/-!
# New blobs

A draft says what a blob shall be made of: the content, who signs it and how, and which other
certificates go along. `Draft.signedData` carries that out. The certificates of the signers go along
by themselves, and no certificate goes along twice.
-/

namespace SignedFirmware.Blob

open X509 (AlgorithmId Certificate)

structure DraftSigner where
  key : Rsa.PrivateKey
  cert : Certificate
  digest : Digest.Algorithm
  /-- Whether attributes are signed in place of the content. -/
  signsAttributes : Bool
  deriving DecidableEq, Repr

/-- What a blob shall be made of. -/
structure Draft where
  content : Bytes
  /-- Whether the content travels apart. -/
  detached : Bool
  signers : List DraftSigner
  /-- Certificates that go along besides those of the signers. -/
  extra : List Certificate
  deriving DecidableEq, Repr

/-- The version that new signed data and its signers have. -/
def newVersion : Nat := 1

/-- Puts the members of a new set in order. -/
def newSet {α : Type} (part : String) (cmp : α → α → Ordering) (members : List α) :
    Except Error (List α) :=
  match Der.sortSet? cmp members with
  | some members => .ok members
  | none => .error (.encoding part)

namespace DraftSigner

/-- The identifier of the digest, without parameters. -/
def digestAlgorithm (s : DraftSigner) : AlgorithmId := ⟨s.digest.oid, none⟩

/-- The attributes that are signed in place of the content. -/
def attributes (contentDigest : Bytes) : Except Error (List Cms.Attribute) :=
  newSet "signed attributes" Cms.Attribute.compare
    [⟨Cms.Attribute.contentType, [Der.ofOid Cms.EncapsulatedContent.data]⟩,
      ⟨Cms.Attribute.messageDigest, [Der.ofOctets contentDigest]⟩]

/-- The attributes that are signed, if there are any, and the digest that the signature is over. -/
def signed (s : DraftSigner) (content : Bytes) :
    Except Error (Option (List Cms.Attribute) × Bytes) := do
  let contentDigest := s.digest.hash content
  if s.signsAttributes then
    let attributes ← attributes contentDigest
    let bytes ← encoded "signed attributes" (Cms.Attribute.setElement attributes)
    pure (some attributes, s.digest.hash bytes)
  else
    pure (none, contentDigest)

def sign (s : DraftSigner) (content : Bytes) : Except Error Cms.SignerInfo := do
  let (signedAttributes, digest) ← s.signed content
  let signature ← (Credential.sign s.key s.digest digest).mapError (.sign s.cert.subject)
  pure
    { version := newVersion
      id := .issuerAndSerial s.cert.issuer s.cert.tbs.serial
      digestAlgorithm := s.digestAlgorithm
      signedAttributes
      signatureAlgorithm := ⟨s.digest.rsaOid, none⟩
      signature
      unsignedAttributes := none }

end DraftSigner

namespace Draft

/-- The digests that the signers use, each once. -/
def digestAlgorithms (d : Draft) : List AlgorithmId :=
  (d.signers.map DraftSigner.digestAlgorithm).eraseDups

/-- The certificates that go along, each once. -/
def certificates (d : Draft) : List Certificate :=
  (d.signers.map DraftSigner.cert ++ d.extra).eraseDups

/-- The content as it goes along. -/
def encapsulated (d : Draft) : Except Error Cms.EncapsulatedContent :=
  if d.detached then .ok ⟨Cms.EncapsulatedContent.data, none⟩
  else do
    -- content without an encoding is refused before anybody signs it
    let _ ← encoded "content" (Der.ofOctets d.content)
    pure ⟨Cms.EncapsulatedContent.data, some (Der.ofOctets d.content)⟩

/-- The set of certificates. There is none without members. -/
def certificateSet (certs : List Certificate) :
    Except Error (Option (List Cms.CertificateChoice)) :=
  if certs = [] then .ok none
  else (newSet "certificates" Cms.CertificateChoice.compare (certs.map .certificate)).map some

def signedData (d : Draft) : Except Error Cms.SignedData := do
  let content ← d.encapsulated
  let signers ← d.signers.mapM fun s ↦ s.sign d.content
  let digestAlgorithms ← newSet "digest algorithms" AlgorithmId.compare d.digestAlgorithms
  let certificates ← certificateSet d.certificates
  let signers ← newSet "signer infos" Cms.SignerInfo.compare signers
  pure
    { version := newVersion
      digestAlgorithms, content, certificates
      revocations := none
      signers }

def buildBare (d : Draft) : Except Error Bytes := do
  let data ← d.signedData
  encoded "SignedData" data.toElement

def build (d : Draft) : Except Error Bytes := do
  let data ← d.signedData
  -- the wrapped form holds the bare one, so that one is encoded first
  let _ ← encoded "SignedData" data.toElement
  encoded "ContentInfo" (Cms.ContentInfo.ofSignedData data).toElement

end Draft

end SignedFirmware.Blob
