import SignedFirmware.Proofs.Blob.Draft
import SignedFirmware.Proofs.Rsa.Signature
import SignedFirmware.Proofs.Trust.Chain
import SignedFirmware.Proofs.Trust.Verify

/-!
# New blobs are accepted

Every signer of a new blob signed its content, so all that is left to whoever verifies it is trust:
the blob is accepted if and only if the certificate of every signer has an accepted chain. Signers
are named by issuer and serial number. They are told apart by these as long as no two certificates
of the draft have both in common, and then the certificate that is found for a signer is their own,
in whatever order signers and certificates stand (`certificateOf?_sign`).
-/

namespace SignedFirmware.Trust

open Blob (Draft DraftSigner)
open Cms (SignedData SignerInfo)
open X509 (Certificate)

/-! ## Signatures -/

theorem givesDigest_attributes {digest : Bytes} {as : List Cms.Attribute}
    (h : DraftSigner.attributes digest = .ok as) : GivesDigest as digest := by
  refine ⟨DraftSigner.digestAttribute digest, Der.ofOctets digest, ?_, rfl, rfl⟩
  refine find?_eq_some_of_unique ((DraftSigner.mem_attributes h).2 (.inr rfl))
    (decide_eq_true rfl) ?_
  intro a ha htype
  rcases (DraftSigner.mem_attributes h).1 ha with rfl | rfl
  · exact absurd htype (by decide)
  · rfl

/-- What a signer with a sound key makes is a signature under the certificate for that key. -/
theorem signs_of_sign {s : DraftSigner} {content : Bytes} {info : SignerInfo}
    (hsound : s.key.IsSound) (hkey : Credential.publicKey s.cert = .ok s.key.publicKey)
    (h : s.sign content = .ok info) : Signs info s.cert content := by
  obtain ⟨attributes, digest, signature, hsigned, hsign, rfl⟩ := DraftSigner.sign_eq_ok_iff.1 h
  obtain ⟨-, -, -, hsignature⟩ := Credential.sign_eq_ok_iff.1 hsign
  have hverifies := Rsa.PrivateKey.verifies_of_sign? hsound hsignature
  have hkey := Credential.publicKey_eq_ok_iff.1 hkey
  refine ⟨s.digest, signerDigest_eq_ok_iff.2 ⟨s.digest.ofOid?_oid, .inr ⟨s.digest, rfl⟩⟩, ?_⟩
  rcases DraftSigner.signed_eq_ok_iff.1 hsigned with
    ⟨-, rfl, rfl⟩ | ⟨-, as, has, hshort, rfl, rfl⟩
  · exact ⟨content, rfl, s.key.publicKey, hkey, hverifies⟩
  · exact ⟨_, ⟨givesDigest_attributes has, hshort, rfl⟩, s.key.publicKey, hkey, hverifies⟩

/-! ## Certificates -/

/-- A draft whose signers can be told apart and hold the keys that they sign with. -/
structure Coherent (d : Draft) : Prop where
  signers : d.signers ≠ []
  /-- Private keys are sound, as all are that were read or made. -/
  sound : ∀ s ∈ d.signers, s.key.IsSound
  /-- The certificate of a signer holds the public half of their key. -/
  key : ∀ s ∈ d.signers, Credential.publicKey s.cert = .ok s.key.publicKey
  /-- Each certificate is the one that its own encoding is read as. -/
  readsBack : ∀ c ∈ d.certificates, Certificate.decode? c.encode = some c
  /-- Two certificates differ in their issuer or their serial number. -/
  distinct : ∀ c ∈ d.certificates, ∀ c' ∈ d.certificates,
    c.issuer = c'.issuer → c.tbs.serial = c'.tbs.serial → c = c'

variable {d : Draft} {data : SignedData}

/-- The certificates of new signed data are those of the draft, in another order. -/
theorem mem_standardCertificates (h : d.signedData = .ok data) {c : Certificate} :
    c ∈ data.standardCertificates ↔ c ∈ d.certificates := by
  obtain ⟨-, -, -, set, -, -, -, -, hset, -, rfl⟩ := Draft.signedData_eq_ok_iff.1 h
  rw [SignedData.standardCertificates]
  rcases Draft.certificateSet_eq_ok_iff.1 hset with ⟨hnil, rfl⟩ | ⟨-, cs, hsorted, rfl⟩
  · simp [hnil]
  · rw [Option.getD_some, List.mem_filterMap]
    simp only [(Der.perm_of_sortSet? hsorted).mem_iff, List.mem_map]
    constructor
    · rintro ⟨_, ⟨found, hfound, rfl⟩, hc⟩
      cases hc
      exact hfound
    · exact fun hc ↦ ⟨_, ⟨c, hc, rfl⟩, rfl⟩

/-- Nobody is missing among the signers of new signed data. -/
theorem signed_of_mem (h : d.signedData = .ok data) {s : DraftSigner} (hs : s ∈ d.signers) :
    ∃ info ∈ data.signers, s.sign d.content = .ok info := by
  obtain ⟨-, signers, -, -, sorted, -, hsigners, -, -, hsorted, rfl⟩ :=
    Draft.signedData_eq_ok_iff.1 h
  obtain ⟨info, hinfo⟩ := exists_forall₂_iff.1 ⟨signers, hsigners⟩ s hs
  have hmem := (Checked.forall_mem_iff (p := (· ∈ signers)) hsigners).1 (fun _ ↦ id) s hs info hinfo
  exact ⟨info, (Der.perm_of_sortSet? hsorted).mem_iff.2 hmem, hinfo⟩

theorem certificateOf?_sign (hd : Coherent d) (h : d.signedData = .ok data) {s : DraftSigner}
    (hs : s ∈ d.signers) {info : SignerInfo} (hinfo : s.sign d.content = .ok info) :
    certificateOf? data info = some s.cert := by
  obtain ⟨_, _, _, -, -, rfl⟩ := DraftSigner.sign_eq_ok_iff.1 hinfo
  have hcert : s.cert ∈ d.certificates := Draft.mem_certificates.2 (.inl ⟨s, hs, rfl⟩)
  refine find?_eq_some_of_unique ((mem_standardCertificates h).2 hcert) ?_ fun c hc hmatches ↦ ?_
  · exact decide_eq_true ⟨rfl, rfl⟩
  · obtain ⟨hissuer, hserial⟩ := of_decide_eq_true hmatches
    exact hd.distinct c ((mem_standardCertificates h).1 hc) s.cert hcert hissuer hserial

/-- Of new signed data, only the chains are left to check. -/
theorem verify_signedData_iff (hd : Coherent d) (h : d.signedData = .ok data) (s : Chain.Setting) :
    verify s data d.content = .ok () ↔
      ∀ signer ∈ d.signers,
        ∃ path, Chain.verify s signer.cert data.standardCertificates = .ok path := by
  rw [verify_eq_ok_iff, Draft.forall_mem_signers_iff h]
  constructor
  · rintro ⟨-, hall⟩ signer hsigner
    obtain ⟨info, -, hinfo⟩ := signed_of_mem h hsigner
    obtain ⟨cert, hcert, hchain, -⟩ := hall signer hsigner info hinfo
    rw [certificateOf?_sign hd h hsigner hinfo, Option.some.injEq] at hcert
    rwa [hcert]
  · intro hchains
    -- the signatures hold by themselves, as all of them were made with the right keys
    obtain ⟨first, hfirst⟩ := List.exists_mem_of_ne_nil _ hd.signers
    obtain ⟨info, hinfo, -⟩ := signed_of_mem h hfirst
    refine ⟨List.ne_nil_of_mem hinfo, fun signer hsigner info hinfo ↦ ?_⟩
    exact ⟨signer.cert, certificateOf?_sign hd h hsigner hinfo, hchains signer hsigner,
      signs_of_sign (hd.sound signer hsigner) (hd.key signer hsigner) hinfo⟩

/-- **What was signed is accepted on trust alone.** Both forms of a new blob are read as the signed
data that was made, which holds the content unless that travels apart, and under any policy it is
accepted over this content if and only if the chains of all signers are. -/
theorem accepted_iff_chains {wrapped bare : Bytes} (hd : Coherent d)
    (hwrapped : d.build = .ok wrapped) (hbare : d.buildBare = .ok bare)
    (hlow : 256 ≤ bare.length) (hhigh : bare.length ≤ 65516) :
    ∃ data, d.signedData = .ok data ∧ Blob.read wrapped = .ok data ∧ Blob.read bare = .ok data ∧
      data.embeddedContent = (if d.detached then none else some d.content) ∧
      ∀ s : Chain.Setting, verify s data d.content = .ok () ↔
        ∀ signer ∈ d.signers,
          ∃ path, Chain.verify s signer.cert data.standardCertificates = .ok path := by
  obtain ⟨data, hdata, hreadWrapped, hreadBare⟩ :=
    Draft.read_build hwrapped hbare hd.readsBack hlow hhigh
  exact ⟨data, hdata, hreadWrapped, hreadBare, Draft.embeddedContent_eq hdata,
    verify_signedData_iff hd hdata⟩

/-- The leaf of a chain of three signs some content, with the other two certificates at hand. -/
def sampleDraft : Draft where
  content := [0x66, 0x77]
  detached := true
  signers := [⟨Rsa.sampleKey, Chain.sampleLeaf, .sha256, true⟩]
  extra := [Chain.sampleRoot, Chain.sampleAuthority]

theorem coherent_sampleDraft : Coherent sampleDraft where
  signers := by decide
  sound := by decide +kernel
  key := by decide +kernel
  readsBack := by decide +kernel
  distinct := by decide +kernel

theorem accepted_iff_chains_sampleDraft :
    Coherent sampleDraft ∧ ∃ wrapped bare data,
      sampleDraft.build = .ok wrapped ∧ sampleDraft.buildBare = .ok bare ∧
      256 ≤ bare.length ∧ bare.length ≤ 65516 ∧
      Blob.read wrapped = .ok data ∧ Blob.read bare = .ok data ∧
      (verify Chain.sampleSetting data sampleDraft.content = .ok () ↔
        ∃ path, Chain.verify Chain.sampleSetting Chain.sampleLeaf data.standardCertificates =
          .ok path) := by
  have hbuild : sampleDraft.build.isOk = true := by decide +kernel
  have hsize : sampleDraft.buildBare.map List.length = .ok 1297 := by decide +kernel
  obtain ⟨wrapped, hwrapped⟩ := Checked.isOk_iff.1 hbuild
  obtain ⟨bare, hbare, hlength⟩ := Checked.map_eq_ok_iff.1 hsize
  have hlow : 256 ≤ bare.length := by omega
  have hhigh : bare.length ≤ 65516 := by omega
  obtain ⟨data, -, hreadWrapped, hreadBare, -, hverify⟩ :=
    accepted_iff_chains coherent_sampleDraft hwrapped hbare hlow hhigh
  refine ⟨coherent_sampleDraft, wrapped, bare, data, hwrapped, hbare, hlow, hhigh, hreadWrapped,
    hreadBare, (hverify Chain.sampleSetting).trans ?_⟩
  simp [sampleDraft]

end SignedFirmware.Trust
