import SignedFirmware.Blob.Draft
import SignedFirmware.Proofs.Blob.Read
import SignedFirmware.Proofs.Cms.SignedData
import SignedFirmware.Proofs.Credential.Key
import SignedFirmware.Proofs.Digest
import SignedFirmware.Proofs.X509.Certificate

/-!
# New blobs are read

The writer of new blobs puts every set in order before it is encoded, and so finds it as it was when
it is read. Everything else that a draft leads to has only one spelling, the certificates excepted:
these come from elsewhere, and each of them has to be one that can be read.
-/

namespace SignedFirmware.Blob

open Cms (ContentInfo EncapsulatedContent SignedData SignerInfo)
open Der (Element ReadsAs)
open X509 (AlgorithmId Certificate)

theorem newSet_eq_ok_iff {α : Type} {part : String} {cmp : α → α → Ordering}
    {members sorted : List α} :
    newSet part cmp members = .ok sorted ↔ Der.sortSet? cmp members = some sorted := by
  rw [newSet]
  split <;> simp_all

theorem natBelow?_newVersion :
    Der.natBelow? Cms.versionLimit (Der.ofNat newVersion) = some newVersion := by
  decide +kernel

/-! ## Signers -/

namespace DraftSigner

variable {s : DraftSigner} {content digest : Bytes}
  {as : List Cms.Attribute} {info : SignerInfo}

def contentTypeAttribute : Cms.Attribute :=
  ⟨Cms.Attribute.contentType, [Der.ofOid EncapsulatedContent.data]⟩

def digestAttribute (digest : Bytes) : Cms.Attribute :=
  ⟨Cms.Attribute.messageDigest, [Der.ofOctets digest]⟩

theorem mem_attributes (h : attributes digest = .ok as) {a : Cms.Attribute} :
    a ∈ as ↔ a = contentTypeAttribute ∨ a = digestAttribute digest := by
  have hperm := Der.perm_of_sortSet? (newSet_eq_ok_iff.1 h)
  rw [hperm.mem_iff, List.mem_cons, List.mem_singleton]
  rfl

theorem sortSet?_attributes (h : attributes digest = .ok as) :
    Der.sortSet? Cms.Attribute.compare as = some as :=
  Der.sortSet?_of_sortSet? Cms.Attribute.mirrors_compare (newSet_eq_ok_iff.1 h)

theorem readsAs_attributes (h : attributes digest = .ok as) :
    ReadsAs Cms.Attribute.setOf? (Cms.Attribute.setElement as) as := by
  refine Cms.Attribute.readsAs_setElement (fun a ha ↦ ?_) (sortSet?_attributes h)
  rcases (mem_attributes h).1 ha with rfl | rfl
  · exact Cms.Attribute.readsAs_toElement (by decide) (by decide) rfl
  · have htype : Oid.ofContent? Cms.Attribute.messageDigest.content =
        some Cms.Attribute.messageDigest := by decide
    exact Cms.Attribute.readsAs_toElement htype (by simp [digestAttribute, Der.ofOctets]) rfl

theorem signed_eq_ok_iff {attributes : Option (List Cms.Attribute)} :
    s.signed content = .ok (attributes, digest) ↔
      (s.signsAttributes = false ∧ attributes = none ∧ digest = s.digest.hash content) ∨
      (s.signsAttributes = true ∧ ∃ as, DraftSigner.attributes (s.digest.hash content) = .ok as ∧
        (Cms.Attribute.setElement as).encode.length ≤ Der.maxLength ∧
        attributes = some as ∧ digest = s.digest.hash (Cms.Attribute.setElement as).encode) := by
  rw [signed]
  cases s.signsAttributes with
  | false =>
    simp only [Bool.false_eq_true, if_false, Checked.pure_eq_ok_iff, Prod.mk.injEq, true_and,
      false_and, or_false]
    rw [eq_comm, @eq_comm _ digest]
  | true =>
    simp only [if_true, Checked.bind_eq_ok_iff, encoded_eq_ok_iff, Checked.pure_eq_ok_iff,
      Prod.mk.injEq, Bool.true_eq_false, false_and, true_and, false_or]
    refine exists_congr fun as ↦ and_congr_right fun _ ↦ ?_
    constructor
    · rintro ⟨_, ⟨hshort, rfl⟩, rfl, rfl⟩
      exact ⟨hshort, rfl, rfl⟩
    · rintro ⟨hshort, rfl, rfl⟩
      exact ⟨_, ⟨hshort, rfl⟩, rfl, rfl⟩

theorem sign_eq_ok_iff :
    s.sign content = .ok info ↔
      ∃ attributes digest signature, s.signed content = .ok (attributes, digest) ∧
        Credential.sign s.key s.digest digest = .ok signature ∧
        info =
          { version := newVersion
            id := .issuerAndSerial s.cert.issuer s.cert.tbs.serial
            digestAlgorithm := s.digestAlgorithm
            signedAttributes := attributes
            signatureAlgorithm := ⟨s.digest.rsaOid, none⟩
            signature
            unsignedAttributes := none } := by
  simp only [sign, Checked.bind_eq_ok_iff, Checked.mapError_eq_ok_iff, Checked.pure_eq_ok_iff,
    Prod.exists]
  constructor
  · rintro ⟨attributes, digest, hsigned, signature, hsignature, rfl⟩
    exact ⟨attributes, digest, signature, hsigned, hsignature, rfl⟩
  · rintro ⟨attributes, digest, signature, hsigned, hsignature, rfl⟩
    exact ⟨attributes, digest, hsigned, signature, hsignature, rfl⟩

theorem readsAs_sign (h : s.sign content = .ok info) (hcert : s.cert.Readable) :
    ReadsAs SignerInfo.ofElement? info.toElement info := by
  obtain ⟨attributes, digest, signature, hsigned, -, rfl⟩ := sign_eq_ok_iff.1 h
  obtain ⟨htbs, -, -⟩ := hcert.parts
  refine SignerInfo.readsAs_toElement natBelow?_newVersion
    (Cms.SignerId.readsAs_issuerAndSerial htbs.issuer htbs.serial) Der.Tag.isKnown_sequence
    (AlgorithmId.readsAs_toElement s.digest.ofContent?_oid (by simp [digestAlgorithm])) ?_
    (AlgorithmId.readsAs_toElement s.digest.ofContent?_rsaOid (by simp)) (by simp)
  rintro as rfl
  rcases signed_eq_ok_iff.1 hsigned with ⟨-, hnone, -⟩ | ⟨-, xs, hxs, -, hsome, -⟩
  · cases hnone
  · cases hsome
    exact readsAs_attributes hxs

end DraftSigner

/-! ## Signed data -/

namespace Draft

variable {d : Draft} {data : SignedData} {bare wrapped : Bytes}

theorem mem_certificates {c : Certificate} :
    c ∈ d.certificates ↔ (∃ s ∈ d.signers, s.cert = c) ∨ c ∈ d.extra := by
  rw [certificates, List.mem_eraseDups, List.mem_append, List.mem_map]

theorem encapsulated_eq_ok {content : EncapsulatedContent} (h : d.encapsulated = .ok content) :
    content = ⟨EncapsulatedContent.data,
      if d.detached then none else some (Der.ofOctets d.content)⟩ := by
  rw [encapsulated] at h
  split at h
  · rename_i hdetached
    cases h
    rw [if_pos hdetached]
  · rename_i hdetached
    obtain ⟨-, -, hcontent⟩ := Checked.bind_eq_ok_iff.1 h
    cases hcontent
    rw [if_neg hdetached]

theorem certificateSet_eq_ok_iff {certs : List Certificate}
    {set : Option (List Cms.CertificateChoice)} :
    certificateSet certs = .ok set ↔
      (certs = [] ∧ set = none) ∨
      (certs ≠ [] ∧ ∃ cs,
        Der.sortSet? Cms.CertificateChoice.compare (certs.map .certificate) = some cs ∧
          set = some cs) := by
  rw [certificateSet]
  by_cases hnil : certs = []
  · simp [hnil, eq_comm]
  · rw [if_neg hnil]
    simp only [Checked.map_eq_ok_iff, newSet_eq_ok_iff, hnil, false_and, false_or, ne_eq,
      not_false_eq_true, true_and]
    refine exists_congr fun cs ↦ and_congr_right fun _ ↦ ?_
    exact eq_comm

theorem signedData_eq_ok_iff :
    d.signedData = .ok data ↔
      ∃ content signers digestAlgorithms certificates sorted, d.encapsulated = .ok content ∧
        List.Forall₂ (fun s info ↦ s.sign d.content = .ok info) d.signers signers ∧
        Der.sortSet? AlgorithmId.compare d.digestAlgorithms = some digestAlgorithms ∧
        certificateSet d.certificates = .ok certificates ∧
        Der.sortSet? SignerInfo.compare signers = some sorted ∧
        data =
          { version := newVersion
            digestAlgorithms, content, certificates
            revocations := none
            signers := sorted } := by
  simp only [signedData, Checked.bind_eq_ok_iff, newSet_eq_ok_iff, Checked.mapM_eq_ok_iff,
    Checked.pure_eq_ok_iff]
  constructor
  · rintro ⟨content, hcontent, signers, hsigners, digests, hdigests, certs, hcerts, sorted, hsorted,
      rfl⟩
    exact ⟨content, signers, digests, certs, sorted, hcontent, hsigners, hdigests, hcerts, hsorted,
      rfl⟩
  · rintro ⟨content, signers, digests, certs, sorted, hcontent, hsigners, hdigests, hcerts, hsorted,
      rfl⟩
    exact ⟨content, hcontent, signers, hsigners, digests, hdigests, certs, hcerts, sorted, hsorted,
      rfl⟩

/-- The signers of new signed data are those of the draft, in another order. -/
theorem forall_mem_signers_iff {p : SignerInfo → Prop} (h : d.signedData = .ok data) :
    (∀ info ∈ data.signers, p info) ↔
      ∀ s ∈ d.signers, ∀ info, s.sign d.content = .ok info → p info := by
  obtain ⟨-, signers, -, -, sorted, -, hsigners, -, -, hsorted, rfl⟩ := signedData_eq_ok_iff.1 h
  rw [← Checked.forall_mem_iff hsigners]
  simp only [(Der.perm_of_sortSet? hsorted).mem_iff]

theorem readsAs_digestAlgorithms {as : List AlgorithmId}
    (h : Der.sortSet? AlgorithmId.compare d.digestAlgorithms = some as) :
    ReadsAs (Cms.setOf? AlgorithmId.ofElement? AlgorithmId.compare)
      (.ofElements Der.Tag.set (as.map AlgorithmId.toElement)) as := by
  refine Cms.readsAs_setOf? (fun _ _ ↦ Der.Tag.isKnown_sequence) (fun a ha ↦ ?_)
    (Der.sortSet?_of_sortSet? AlgorithmId.mirrors_compare h)
  rw [(Der.perm_of_sortSet? h).mem_iff, digestAlgorithms, List.mem_eraseDups, List.mem_map] at ha
  obtain ⟨s, -, rfl⟩ := ha
  exact AlgorithmId.readsAs_toElement s.digest.ofContent?_oid
    (by simp [DraftSigner.digestAlgorithm])

theorem readsAs_encapsulated {content : EncapsulatedContent} (h : d.encapsulated = .ok content) :
    ReadsAs EncapsulatedContent.ofElement? content.toElement content := by
  have htype : Oid.ofContent? EncapsulatedContent.data.content = some EncapsulatedContent.data := by
    decide
  rw [encapsulated_eq_ok h]
  refine EncapsulatedContent.readsAs_toElement htype fun x hx ↦ ?_
  obtain ⟨-, hx⟩ := Option.ite_none_left_eq_some.1 hx
  cases hx
  exact Der.Tag.isKnown_octetString

theorem readsAs_certificateSet {certs : List Certificate}
    {set : Option (List Cms.CertificateChoice)} (h : certificateSet certs = .ok set)
    (hcerts : ∀ c ∈ certs, c.Readable) {cs : List Cms.CertificateChoice} (hcs : set = some cs) :
    ReadsAs (Cms.setOf? Cms.CertificateChoice.ofElement? Cms.CertificateChoice.compare)
      (SignedData.certificatesElement cs) cs := by
  rcases certificateSet_eq_ok_iff.1 h with ⟨-, hnone⟩ | ⟨-, found, hsorted, hsome⟩
  · rw [hnone] at hcs
    cases hcs
  · obtain rfl : found = cs := Option.some.inj (hsome.symm.trans hcs)
    have hmem : ∀ choice ∈ found, ∃ c ∈ certs, .certificate c = choice := fun choice hchoice ↦
      List.mem_map.1 ((Der.perm_of_sortSet? hsorted).mem_iff.1 hchoice)
    refine Cms.readsAs_setOf? (fun choice hchoice ↦ ?_) (fun choice hchoice ↦ ?_)
      (Der.sortSet?_of_sortSet? Cms.CertificateChoice.mirrors_compare hsorted)
    · obtain ⟨c, -, rfl⟩ := hmem choice hchoice
      exact Der.Tag.isKnown_sequence
    · obtain ⟨c, hc, rfl⟩ := hmem choice hchoice
      exact Cms.CertificateChoice.readsAs_certificate (hcerts c hc).readsAs_toElement

/-- New signed data is read back, if every certificate is. -/
theorem readsAs_signedData (h : d.signedData = .ok data)
    (hcerts : ∀ c ∈ d.certificates, c.Readable) :
    ReadsAs SignedData.ofElement? data.toElement data := by
  have hsigners := (forall_mem_signers_iff (p := fun info ↦
    ReadsAs SignerInfo.ofElement? info.toElement info) h).2 fun s hs info hinfo ↦
      DraftSigner.readsAs_sign hinfo (hcerts _ (mem_certificates.2 (.inl ⟨s, hs, rfl⟩)))
  obtain ⟨content, signers, digests, set, sorted, hcontent, -, hdigests, hset, hsorted, rfl⟩ :=
    signedData_eq_ok_iff.1 h
  exact SignedData.readsAs_toElement natBelow?_newVersion (readsAs_digestAlgorithms hdigests)
    (readsAs_encapsulated hcontent) (fun _ hcs ↦ readsAs_certificateSet hset hcerts hcs) (by simp)
    (Cms.readsAs_setOf? (fun _ _ ↦ Der.Tag.isKnown_sequence) hsigners
      (Der.sortSet?_of_sortSet? SignerInfo.mirrors_compare hsorted))

/-! ## Blobs -/

theorem buildBare_eq_ok_iff :
    d.buildBare = .ok bare ↔
      ∃ data, d.signedData = .ok data ∧ data.encode = bare ∧ bare.length ≤ Der.maxLength := by
  simp only [buildBare, Checked.bind_eq_ok_iff, encoded_eq_ok_iff]
  constructor
  · rintro ⟨data, hdata, hlength, rfl⟩
    exact ⟨data, hdata, rfl, hlength⟩
  · rintro ⟨data, hdata, rfl, hlength⟩
    exact ⟨data, hdata, hlength, rfl⟩

theorem build_eq_ok_iff :
    d.build = .ok wrapped ↔
      ∃ data, d.signedData = .ok data ∧ data.encode.length ≤ Der.maxLength ∧
        (ContentInfo.ofSignedData data).encode = wrapped ∧ wrapped.length ≤ Der.maxLength := by
  simp only [build, Checked.bind_eq_ok_iff, encoded_eq_ok_iff]
  constructor
  · rintro ⟨data, hdata, _, ⟨hlength, -⟩, hmax, rfl⟩
    exact ⟨data, hdata, hlength, rfl, hmax⟩
  · rintro ⟨data, hdata, hlength, rfl, hmax⟩
    exact ⟨data, hdata, _, ⟨hlength, rfl⟩, hmax, rfl⟩

/-- A bare blob is one encoding of its signed data. -/
theorem reads_of_signedData (h : d.signedData = .ok data)
    (hlength : data.encode.length ≤ Der.maxLength) (hcerts : ∀ c ∈ d.certificates, c.Readable) :
    Reads data.encode data := by
  have hfits : data.toElement.Fits :=
    ⟨Der.Tag.isKnown_sequence, data.toElement.length_content_lt.le.trans hlength⟩
  exact reads_iff.2 ⟨hlength, data.toElement, hfits, rfl, readsAs_signedData h hcerts hfits⟩

/-- Both forms of a new blob are read as its signed data, if the size is one for which the reader
and the writer agree on the header. -/
theorem read_build (hwrapped : d.build = .ok wrapped) (hbare : d.buildBare = .ok bare)
    (hcerts : ∀ c ∈ d.certificates, Certificate.decode? c.encode = some c)
    (hlow : 0x100 ≤ bare.length) (hhigh : bare.length ≤ 65516) :
    ∃ data, d.signedData = .ok data ∧ read wrapped = .ok data ∧ read bare = .ok data := by
  obtain ⟨data, hdata, rfl, hlength⟩ := buildBare_eq_ok_iff.1 hbare
  obtain ⟨data', hdata', -, rfl, hmax⟩ := build_eq_ok_iff.1 hwrapped
  obtain rfl : data' = data := Except.ok.inj (hdata'.symm.trans hdata)
  have hreads := reads_of_signedData hdata hlength fun c hc ↦
    Certificate.readable_of_decode? (hcerts c hc)
  refine ⟨data', hdata, (read_eq_ok_iff hmax).2 (.inl ?_),
    (read_eq_ok_iff hlength).2 (.inr ⟨hlow, hhigh, hreads⟩)⟩
  -- in this range the writer of the outer structure makes the header that the reader expects
  refine ⟨data'.encode, [], hlow, by omega, ?_, hreads⟩
  rw [ContentInfo.ofSignedData, Envelope.encode_contentInfo hlow (hhigh.trans (by decide)),
    List.append_nil]
  rfl

theorem embeddedContent_eq (h : d.signedData = .ok data) :
    data.embeddedContent = if d.detached then none else some d.content := by
  obtain ⟨content, -, -, -, -, hcontent, -, -, -, -, rfl⟩ := signedData_eq_ok_iff.1 h
  rw [SignedData.embeddedContent, encapsulated_eq_ok hcontent]
  cases d.detached <;> rfl

end Draft

end SignedFirmware.Blob
