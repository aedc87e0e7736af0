import SignedFirmware.Proofs.List
import SignedFirmware.Proofs.Trust.Check
import SignedFirmware.Trust.Verify

/-!
# Which signed data is accepted

A verification goes over the signers three times: to find their certificates, to check the chains of
these, and to check the signatures. As each signer is paired with the certificate that was found for
it, the three passes amount to one statement about each signer by itself (`verify_eq_ok_iff`), in
which neither positions nor other signers occur.
-/

namespace SignedFirmware.Trust

open X509 (Certificate)
open Cms (SignedData SignerInfo)

/-! ## Certificates of signers -/

/-- The certificate that is found for a signer: the first that they name. -/
def certificateOf? (d : SignedData) (signer : SignerInfo) : Option Certificate :=
  d.standardCertificates.find? fun c ↦ decide (signer.id.Matches c)

theorem signerCertificate_eq_ok_iff {d : SignedData} {position : Nat} {signer : SignerInfo}
    {cert : Certificate} :
    d.signerCertificate position signer = .ok cert ↔ certificateOf? d signer = some cert := by
  rw [SignedData.signerCertificate, certificateOf?]
  split <;> rename_i h <;> rw [h] <;> simp

theorem signerCertificates_eq_ok_iff {d : SignedData} {certs : List Certificate} :
    d.signerCertificates = .ok certs ↔
      d.signers ≠ [] ∧
        List.Forall₂ (fun signer cert ↦ certificateOf? d signer = some cert) d.signers certs := by
  rw [SignedData.signerCertificates]
  split
  · rename_i hnil
    simp [hnil]
  · rename_i hne
    simp only [Checked.mapM_eq_ok_iff, signerCertificate_eq_ok_iff]
    rw [← List.forall₂_map_left_iff (f := Prod.fst)
      (R := fun signer cert ↦ certificateOf? d signer = some cert), List.zipIdx_map_fst]
    exact (and_iff_right hne).symm

/-! ## Signatures -/

theorem signerDigest_eq_ok_iff {signer : SignerInfo} {a : Digest.Algorithm} :
    signerDigest signer = .ok a ↔
      Digest.Algorithm.ofOid? signer.digestAlgorithm.oid = some a ∧
        (signer.signatureAlgorithm.oid = SignatureScheme.rsaEncryption ∨
          ∃ b : Digest.Algorithm, signer.signatureAlgorithm.oid = b.rsaOid) := by
  rw [signerDigest, ← SignatureScheme.isSome_ofOid?_iff]
  split
  · rename_i hnone
    simp [hnone]
  · rename_i b hsome
    rw [hsome]
    split <;> simp_all

/-- The signed attributes of a signer, if there are any, give a digest as that of the content: the
first value of the first attribute for it reads as these octets. -/
def GivesDigest (attributes : List Cms.Attribute) (digest : Bytes) : Prop :=
  ∃ found value,
    attributes.find? (·.type = Cms.Attribute.messageDigest) = some found ∧
      found.values.head? = some value ∧ Der.octets? value = some digest

theorem givesDigest_iff {attributes : List Cms.Attribute} {digest : Bytes} :
    GivesDigest attributes digest ↔
      ∃ value, messageDigest? attributes = some value ∧ Der.octets? value = some digest := by
  simp only [GivesDigest, messageDigest?, Option.bind_eq_some_iff]
  constructor
  · rintro ⟨found, value, hfind, hhead, hoctets⟩
    exact ⟨value, ⟨found, hfind, hhead⟩, hoctets⟩
  · rintro ⟨value, ⟨found, hfind, hhead⟩, hoctets⟩
    exact ⟨found, value, hfind, hhead, hoctets⟩

/-- The message that a signer signs for some content: the content, or attributes that give its
digest and have an encoding. -/
def Covers (signer : SignerInfo) (a : Digest.Algorithm) (content message : Bytes) : Prop :=
  match signer.signedAttributes with
  | none => message = content
  | some attributes =>
    GivesDigest attributes (a.hash content) ∧
      (Cms.Attribute.setElement attributes).encode.length ≤ Der.maxLength ∧
        message = (Cms.Attribute.setElement attributes).encode

theorem signedDigest_eq_ok_iff {position : Nat} {signer : SignerInfo} {a : Digest.Algorithm}
    {content digest : Bytes} :
    signedDigest position signer a content = .ok digest ↔
      ∃ message, Covers signer a content message ∧ a.hash message = digest := by
  simp only [signedDigest, Covers]
  cases signer.signedAttributes with
  | none => simp
  | some attributes =>
    simp only [givesDigest_iff]
    cases messageDigest? attributes with
    | none => simp
    | some value =>
      cases hoctets : Der.octets? value with
      | none => simp [hoctets]
      | some octets =>
        by_cases heq : octets = a.hash content
        · simp only [hoctets, heq, if_true, Checked.bind_eq_ok_iff, Checked.pure_eq_ok_iff,
            Blob.encoded_eq_ok_iff]
          simp [hoctets, heq]
        · simp [hoctets, heq]

/-- A signer signed some content with the key of a certificate. -/
def Signs (signer : SignerInfo) (cert : Certificate) (content : Bytes) : Prop :=
  ∃ a, signerDigest signer = .ok a ∧
    ∃ message, Covers signer a content message ∧
      KeyVerifies cert a (a.hash message) signer.signature

theorem signs_iff {signer : SignerInfo} {cert : Certificate} {content : Bytes} :
    Signs signer cert content ↔
      ∃ a, Digest.Algorithm.ofOid? signer.digestAlgorithm.oid = some a ∧
        (signer.signatureAlgorithm.oid = SignatureScheme.rsaEncryption ∨
          ∃ b : Digest.Algorithm, signer.signatureAlgorithm.oid = b.rsaOid) ∧
        match signer.signedAttributes with
        | none => KeyVerifies cert a (a.hash content) signer.signature
        | some attributes =>
          GivesDigest attributes (a.hash content) ∧
            (Cms.Attribute.setElement attributes).encode.length ≤ Der.maxLength ∧
              KeyVerifies cert a (a.hash (Cms.Attribute.setElement attributes).encode)
                signer.signature := by
  refine exists_congr fun a ↦ ?_
  rw [signerDigest_eq_ok_iff, and_assoc]
  refine and_congr_right fun _ ↦ and_congr_right fun _ ↦ ?_
  cases hattributes : signer.signedAttributes with
  | none => simp [Covers, hattributes]
  | some attributes => simp [Covers, hattributes, and_assoc]

theorem verifySigner_eq_ok_iff {position : Nat} {signer : SignerInfo} {cert : Certificate}
    {content : Bytes} {u : Unit} :
    verifySigner position signer cert content = .ok u ↔ Signs signer cert content := by
  rw [verifySigner, Checked.bind_eq_ok_iff]
  refine exists_congr fun a ↦ and_congr_right fun _ ↦ ?_
  rw [Checked.bind_eq_ok_iff]
  constructor
  · rintro ⟨_, hdigest, h⟩
    obtain ⟨message, hcovers, rfl⟩ := signedDigest_eq_ok_iff.1 hdigest
    exact ⟨message, hcovers, checkKey_eq_ok_iff.1 h⟩
  · rintro ⟨message, hcovers, h⟩
    exact ⟨_, signedDigest_eq_ok_iff.2 ⟨message, hcovers, rfl⟩, checkKey_eq_ok_iff.2 h⟩

/-! ## All signers -/

theorem checkSigners_eq_ok_iff {d : SignedData} {certs : List Certificate} {content : Bytes}
    {u : Unit} :
    ((withCertificates d certs).forM fun ((signer, cert), position) ↦
        verifySigner position signer cert content) = .ok u ↔
      ∀ p ∈ d.signers.zip certs, Signs p.1 p.2 content := by
  rw [Checked.forM_eq_ok_iff, withCertificates]
  simp only [verifySigner_eq_ok_iff]
  exact forall_mem_zipIdx_iff (p := fun p : SignerInfo × Certificate ↦ Signs p.1 p.2 content)

theorem checkChains_eq_ok_iff {s : Chain.Setting} {certs pool : List Certificate} {u : Unit} :
    (certs.forM fun cert ↦ do
        let _ ← Chain.verify s cert pool) = .ok u ↔
      ∀ cert ∈ certs, ∃ path, Chain.verify s cert pool = .ok path := by
  rw [Checked.forM_eq_ok_iff]
  simp only [Checked.bind_eq_ok_iff]
  simp

theorem verify_eq_ok_iff_exists_certs {s : Chain.Setting} {d : SignedData} {content : Bytes} :
    verify s d content = .ok () ↔
      ∃ certs, d.signerCertificates = .ok certs ∧
        (∀ cert ∈ certs, ∃ path, Chain.verify s cert d.standardCertificates = .ok path) ∧
          ∀ p ∈ d.signers.zip certs, Signs p.1 p.2 content := by
  simp only [verify, Checked.bind_eq_ok_iff, checkChains_eq_ok_iff, checkSigners_eq_ok_iff,
    exists_const]

theorem verify_eq_ok_iff {s : Chain.Setting} {d : SignedData} {content : Bytes} :
    verify s d content = .ok () ↔
      d.signers ≠ [] ∧ ∀ signer ∈ d.signers, ∃ cert, certificateOf? d signer = some cert ∧
        (∃ path, Chain.verify s cert d.standardCertificates = .ok path) ∧
          Signs signer cert content := by
  -- the certificates are in step with the signers, and both later passes go over these pairs
  rw [← exists_forall₂_iff, verify_eq_ok_iff_exists_certs]
  simp only [forall₂_and_iff, signerCertificates_eq_ok_iff]
  constructor
  · rintro ⟨certs, ⟨hne, hcerts⟩, hchains, hsigns⟩
    exact ⟨hne, certs, hcerts, hchains, hsigns⟩
  · rintro ⟨hne, certs, hcerts, hchains, hsigns⟩
    exact ⟨certs, ⟨hne, hcerts⟩, hchains, hsigns⟩

/-- Once all chains hold, only the signatures are left to check. -/
theorem verify_eq_checkSigners {s : Chain.Setting} {d : SignedData} {certs : List Certificate}
    (hcerts : d.signerCertificates = .ok certs)
    (hchains : ∀ cert ∈ certs, ∃ path, Chain.verify s cert d.standardCertificates = .ok path)
    (content : Bytes) :
    verify s d content = (withCertificates d certs).forM fun ((signer, cert), position) ↦
      verifySigner position signer cert content := by
  have hpass : (certs.forM fun cert ↦ do
      let _ ← Chain.verify s cert d.standardCertificates) = .ok () :=
    checkChains_eq_ok_iff.2 hchains
  rw [verify, hcerts]
  exact congrArg (· >>= fun _ ↦ _) hpass

/-- The signers of a blob that was read show attributes that have an encoding, as they were spelled
there. -/
theorem length_setElement_le_of_read {data : Bytes} {d : SignedData} (h : Blob.read data = .ok d)
    {signer : SignerInfo} (hsigner : signer ∈ d.signers) {attributes : List Cms.Attribute}
    (hattributes : signer.signedAttributes = some attributes) :
    (Cms.Attribute.setElement attributes).encode.length ≤ Der.maxLength := by
  obtain ⟨-, -, _, -, info, _, -, hopens⟩ := Blob.read_eq_ok_iff_opens.1 h
  obtain ⟨-, hread⟩ := Blob.openContentInfo_eq_ok_iff.1 hopens
  obtain ⟨member, hfits, hmember⟩ := SignedData.exists_of_mem_signers hread hsigner
  exact (SignerInfo.length_encode_setElement_le hmember hattributes).trans hfits.short

/-- **Which signed data is accepted.** There has to be a signer, and every signer has to name a
certificate with an accepted chain, whose key made the signature over the content or over attributes
that give its digest. The attributes must have an encoding, and in a blob that was read all of them
do. -/
theorem accepted_signedData (s : Chain.Setting) (d : SignedData) (content : Bytes) :
    (verify s d content = .ok () ↔
      d.signers ≠ [] ∧ ∀ signer ∈ d.signers, ∃ cert,
        d.standardCertificates.find? (fun c ↦ decide (signer.id.Matches c)) = some cert ∧
        (∃ path, Chain.verify s cert d.standardCertificates = .ok path) ∧
        ∃ a, Digest.Algorithm.ofOid? signer.digestAlgorithm.oid = some a ∧
          (signer.signatureAlgorithm.oid = SignatureScheme.rsaEncryption ∨
            ∃ b : Digest.Algorithm, signer.signatureAlgorithm.oid = b.rsaOid) ∧
          match signer.signedAttributes with
          | none => KeyVerifies cert a (a.hash content) signer.signature
          | some attributes =>
            GivesDigest attributes (a.hash content) ∧
              (Cms.Attribute.setElement attributes).encode.length ≤ Der.maxLength ∧
                KeyVerifies cert a (a.hash (Cms.Attribute.setElement attributes).encode)
                  signer.signature) ∧
    ∀ data, Blob.read data = .ok d → ∀ signer ∈ d.signers, ∀ attributes,
      signer.signedAttributes = some attributes →
        (Cms.Attribute.setElement attributes).encode.length ≤ Der.maxLength := by
  refine ⟨?_, fun data hread signer hsigner attributes hattributes ↦ ?_⟩
  · simp only [verify_eq_ok_iff, signs_iff, certificateOf?]
  · exact length_setElement_le_of_read hread hsigner hattributes

end SignedFirmware.Trust
