import Mathlib.Data.List.Perm.Basic
import SignedFirmware.Proofs.Blob.Size
import SignedFirmware.Proofs.Der.Order

/-!
# Drafts in another order

A draft is put together step by step, and the steps may come in any order: signers in one or
another, certificates early or late, once or several times, by themselves or with a signer. What is
made of it consists of three sets, and a set has no order. Digests and certificates are also taken
once each, so of them nothing is left but which they are (`sortSet?_digestAlgorithms`,
`certificateSet_congr`).

Signers are not taken once each, and their order is not strict. Two of them who name one certificate
by issuer and serial number, use one digest and take up the same room agree as far as the parameters
of the digest, which are absent from both, and there each comes before the other. If they are told
apart only by what follows, a signature for example, they stay in the order of the draft and it
shows in the bytes (`buildBare_ne_of_tied`). `Untied` says that this does not happen. That a blob
can be made at all does not depend on it.
-/

namespace SignedFirmware

open Der (Element)

/-! ## Members that come before each other -/

theorem Der.eq_of_then_lt {o : Ordering} (h : o.then .lt = .lt) (h' : o.swap.then .lt = .lt) :
    o = .eq := by
  cases o with
  | lt => cases h'
  | eq => rfl
  | gt => cases h

namespace X509.AlgorithmId

variable {a b : AlgorithmId}

/-- Without parameters, what is behind the identifier of an algorithm says nothing. -/
theorem compare_of_plain (ha : a.parameters = none) :
    compare a b = ((Der.compareHeader a.toElement b.toElement).then
      (Der.comparePlain (Der.ofOid a.oid) (Der.ofOid b.oid))).then .lt := by
  -- nothing comes before whatever it is compared with, nothing included
  rw [compare, ha]
  cases b.parameters <;> rfl

theorem eq_of_tied (ha : a.parameters = none) (hb : b.parameters = none)
    (h : compare a b = .lt) (h' : compare b a = .lt) : a = b := by
  rw [compare_of_plain ha] at h
  rw [compare_of_plain hb, ← Der.compareHeader_swap, ← Der.comparePlain_swap,
    ← Ordering.swap_then] at h'
  have hplain := (Ordering.then_eq_eq.1 (Der.eq_of_then_lt h h')).2
  have hcontent : a.oid.content = b.oid.content :=
    Der.eq_of_compareBytes (Ordering.then_eq_eq.1 hplain).2
  cases a
  cases b
  cases ha
  cases hb
  exact congrArg (AlgorithmId.mk · none) (congrArg Oid.mk hcontent)

end X509.AlgorithmId

namespace Cms

namespace SignerInfo

variable {a b : SignerInfo}

/-- If the digest of a signer is without parameters, what is behind it says nothing. -/
theorem compare_of_plain (ha : a.digestAlgorithm.parameters = none) :
    compare a b = ((((Der.compareHeader a.toElement b.toElement).then
      (Der.comparePlain (Der.ofNat a.version) (Der.ofNat b.version))).then
      (Der.compareChoice a.id.toElement b.id.toElement)).then
      ((Der.compareHeader a.digestAlgorithm.toElement b.digestAlgorithm.toElement).then
        (Der.comparePlain (Der.ofOid a.digestAlgorithm.oid)
          (Der.ofOid b.digestAlgorithm.oid)))).then .lt := by
  simp only [compare, X509.AlgorithmId.compare_of_plain ha, List.foldl_cons, List.foldl_nil,
    Ordering.eq_then, Ordering.then_assoc, Ordering.lt_then]

/-- Signers who come before each other name their certificates alike. -/
theorem encode_id_eq_of_tied (ha : a.digestAlgorithm.parameters = none)
    (hb : b.digestAlgorithm.parameters = none) (h : compare a b = .lt) (h' : compare b a = .lt) :
    a.id.toElement.encode = b.id.toElement.encode ∧
      a.digestAlgorithm.oid.content = b.digestAlgorithm.oid.content := by
  rw [compare_of_plain ha] at h
  rw [compare_of_plain hb] at h'
  simp only [← Der.compareHeader_swap a.toElement, ← Der.comparePlain_swap (Der.ofNat a.version),
    ← Der.compareChoice_swap a.id.toElement, ← Der.compareHeader_swap a.digestAlgorithm.toElement,
    ← Der.comparePlain_swap (Der.ofOid a.digestAlgorithm.oid), ← Ordering.swap_then] at h'
  obtain ⟨hfront, hdigest⟩ := Ordering.then_eq_eq.1 (Der.eq_of_then_lt h h')
  have hid := (Ordering.then_eq_eq.1 hfront).2
  have hoid := (Ordering.then_eq_eq.1 hdigest).2
  exact ⟨Der.eq_of_compareBytes (Ordering.then_eq_eq.1 (Ordering.then_eq_eq.1 hid).2).2,
    Der.eq_of_compareBytes (Ordering.then_eq_eq.1 hoid).2⟩

end SignerInfo

/-- No certificate comes before one that comes before it. -/
theorem CertificateChoice.not_tied {a b : CertificateChoice} (h : compare a b = .lt)
    (h' : compare b a = .lt) : a = b := by
  rw [compare, ← Der.compareChoice_swap] at h'
  rw [show Der.compareChoice a.toElement b.toElement = .lt from h] at h'
  cases h'

end Cms

namespace Blob

open Cms (ContentInfo SignedData SignerId SignerInfo)
open X509 (AlgorithmId Certificate)

namespace Draft

variable {d d' : Draft} {data : SignedData}

/-! ## What two drafts have in common -/

/-- Two drafts are about the same content, with the same signers in some order and with the same
certificates, no matter how often and in which role each of these is mentioned. -/
structure Rearranged (d d' : Draft) : Prop where
  content : d.content = d'.content
  detached : d.detached = d'.detached
  signers : d.signers.Perm d'.signers
  certs : ∀ c, c ∈ d.signers.map DraftSigner.cert ++ d.extra ↔
    c ∈ d'.signers.map DraftSigner.cert ++ d'.extra

theorem Rearranged.symm (h : d.Rearranged d') : d'.Rearranged d where
  content := h.content.symm
  detached := h.detached.symm
  signers := h.signers.symm
  certs c := (h.certs c).symm

/-- Of what the signers of a draft sign, no two things come before each other unless they are the
same. -/
def Untied (d : Draft) : Prop :=
  ∀ s ∈ d.signers, ∀ t ∈ d.signers, ∀ a b, s.sign d.content = .ok a → t.sign d.content = .ok b →
    a.compare b = .lt → b.compare a = .lt → a = b

theorem Untied.of_rearranged (h : d.Rearranged d') (hd : d.Untied) : d'.Untied := by
  intro s hs t ht a b
  rw [← h.content]
  exact hd s (h.signers.mem_iff.2 hs) t (h.signers.mem_iff.2 ht) a b

/-- Signers are not tied as long as they can be told apart by their digests and by how they name
their certificates. -/
theorem untied_of_distinct
    (h : ∀ s ∈ d.signers, ∀ t ∈ d.signers, s.digest = t.digest →
      (SignerId.issuerAndSerial s.cert.issuer s.cert.tbs.serial).toElement.encode =
        (SignerId.issuerAndSerial t.cert.issuer t.cert.tbs.serial).toElement.encode → s = t) :
    d.Untied := by
  intro s hs t ht a b ha hb hlt hlt'
  obtain ⟨_, _, _, -, -, hsigned⟩ := DraftSigner.sign_eq_ok_iff.1 ha
  obtain ⟨_, _, _, -, -, hsigned'⟩ := DraftSigner.sign_eq_ok_iff.1 hb
  have hplain : a.digestAlgorithm = s.digestAlgorithm := by rw [hsigned]
  have hplain' : b.digestAlgorithm = t.digestAlgorithm := by rw [hsigned']
  have hname : a.id = .issuerAndSerial s.cert.issuer s.cert.tbs.serial := by rw [hsigned]
  have hname' : b.id = .issuerAndSerial t.cert.issuer t.cert.tbs.serial := by rw [hsigned']
  obtain ⟨hid, hdigest⟩ := SignerInfo.encode_id_eq_of_tied (by rw [hplain]; rfl)
    (by rw [hplain']; rfl) hlt hlt'
  -- so ties are down to the digest and the name, and these say who the signer is
  rw [hplain, hplain'] at hdigest
  rw [hname, hname'] at hid
  have hsame : s.digest = t.digest := Digest.Algorithm.oid_injective (congrArg Oid.mk hdigest)
  obtain rfl : s = t := h s hs t ht hsame hid
  exact Except.ok.inj (ha.symm.trans hb)

/-! ## The three sets -/

theorem encapsulated_congr (h : d.Rearranged d') : d.encapsulated = d'.encapsulated := by
  rw [encapsulated, encapsulated, h.content, h.detached]

theorem perm_digestAlgorithms (h : d.Rearranged d') :
    d.digestAlgorithms.Perm d'.digestAlgorithms :=
  perm_eraseDups fun _ ↦ (h.signers.map DraftSigner.digestAlgorithm).mem_iff

theorem perm_certificates (h : d.Rearranged d') : d.certificates.Perm d'.certificates :=
  perm_eraseDups h.certs

theorem parameters_of_mem_digestAlgorithms {a : AlgorithmId} (h : a ∈ d.digestAlgorithms) :
    a.parameters = none := by
  rw [digestAlgorithms, List.mem_eraseDups, List.mem_map] at h
  obtain ⟨s, -, rfl⟩ := h
  rfl

theorem sortSet?_digestAlgorithms (h : d.Rearranged d') :
    Der.sortSet? AlgorithmId.compare d.digestAlgorithms =
      Der.sortSet? AlgorithmId.compare d'.digestAlgorithms := by
  refine Der.sortSet?_eq_of_perm AlgorithmId.mirrors_compare AlgorithmId.transits_compare ?_
    (perm_digestAlgorithms h)
  intro a ha b hb
  exact AlgorithmId.eq_of_tied (parameters_of_mem_digestAlgorithms ha)
    (parameters_of_mem_digestAlgorithms hb)

theorem certificateSet_congr {certs certs' : List Certificate} (h : certs.Perm certs') :
    certificateSet certs = certificateSet certs' := by
  have hsorted := Der.sortSet?_eq_of_perm Cms.CertificateChoice.mirrors_compare
    Cms.CertificateChoice.transits_compare (fun _ _ _ _ ↦ Cms.CertificateChoice.not_tied)
    (h.map .certificate)
  have hnil : certs = [] ↔ certs' = [] := by
    rw [← List.length_eq_zero_iff, ← List.length_eq_zero_iff, h.length_eq]
  rw [certificateSet, certificateSet, newSet, newSet, hsorted]
  exact ite_congr (propext hnil) (fun _ ↦ rfl) fun _ ↦ rfl

theorem exists_signed_of_perm {signers signers' : List DraftSigner} {content : Bytes}
    {infos : List SignerInfo} (h : signers.Perm signers')
    (hinfos : List.Forall₂ (fun s info ↦ s.sign content = .ok info) signers infos) :
    ∃ infos', List.Forall₂ (fun s info ↦ s.sign content = .ok info) signers' infos' ∧
      infos.Perm infos' := by
  obtain ⟨infos', hinfos', hperm⟩ := List.perm_comp_forall₂ h.symm hinfos
  exact ⟨infos', hinfos', hperm.symm⟩

/-- What was signed is tied only to itself. -/
theorem Untied.eq_of_signed (hd : d.Untied) {infos : List SignerInfo}
    (hinfos : List.Forall₂ (fun s info ↦ s.sign d.content = .ok info) d.signers infos) :
    ∀ a ∈ infos, ∀ b ∈ infos, a.compare b = .lt → b.compare a = .lt → a = b := by
  refine (Checked.forall_mem_iff hinfos).2 fun s hs a ha ↦ ?_
  exact (Checked.forall_mem_iff hinfos).2 fun t ht b hb ↦ hd s hs t ht a b ha hb

/-! ## Signed data -/

/-- Drafts that are rearranged make the same signed data, the order of tied signers excepted. -/
theorem signedData_of_rearranged (h : d.Rearranged d') (hdata : d.signedData = .ok data) :
    ∃ signers, d'.signedData = .ok { data with signers } ∧ data.signers.Perm signers ∧
      (d.Untied → data.signers = signers) := by
  obtain ⟨content, infos, digests, certs, sorted, hcontent, hinfos, hdigests, hcerts, hsorted,
    rfl⟩ := signedData_eq_ok_iff.1 hdata
  obtain ⟨infos', hinfos', hperm⟩ := exists_signed_of_perm h.signers hinfos
  obtain ⟨sorted', hsorted'⟩ := Der.exists_sortSet?_of_perm SignerInfo.mirrors_compare
    SignerInfo.transits_compare hperm hsorted
  rw [h.content] at hinfos'
  refine ⟨sorted', signedData_eq_ok_iff.2 ⟨content, infos', digests, certs, sorted', ?_, hinfos',
    ?_, ?_, hsorted', rfl⟩, ?_, fun hd ↦ ?_⟩
  · rw [← encapsulated_congr h, hcontent]
  · rw [← sortSet?_digestAlgorithms h, hdigests]
  · rw [← certificateSet_congr (perm_certificates h), hcerts]
  · exact ((Der.perm_of_sortSet? hsorted).trans hperm).trans (Der.perm_of_sortSet? hsorted').symm
  · have hsame := Der.sortSet?_eq_of_perm SignerInfo.mirrors_compare SignerInfo.transits_compare
      (hd.eq_of_signed hinfos) hperm
    exact Option.some.inj (hsorted.symm.trans (hsame.trans hsorted'))

theorem length_encode_of_perm {signers : List SignerInfo} (h : data.signers.Perm signers) :
    ({ data with signers } : SignedData).encode.length = data.encode.length := by
  have hmembers := (h.symm.map SignerInfo.toElement).flatMap_right Element.encode
  have hset : (SignedData.signersElement signers).encode.length =
      (SignedData.signersElement data.signers).encode.length :=
    Element.length_encode_congr hmembers.length_eq
  refine Element.length_encode_congr ?_
  rw [SignedData.toElement_eq, SignedData.toElement_eq]
  simp only [Element.ofElements, List.flatMap_cons, List.flatMap_append, List.flatMap_nil,
    List.length_append, hset]

theorem length_ofSignedData_congr {data data' : SignedData}
    (h : data.encode.length = data'.encode.length) :
    (ContentInfo.ofSignedData data).encode.length =
      (ContentInfo.ofSignedData data').encode.length := by
  rw [SignedData.encode, SignedData.encode] at h
  refine Element.length_encode_congr ?_
  rw [ContentInfo.ofSignedData, ContentInfo.ofSignedData, ContentInfo.length_content,
    ContentInfo.length_content, h]

/-! ## Blobs -/

theorem isOk_buildBare_of_rearranged (h : d.Rearranged d') (hd : d.buildBare.isOk = true) :
    d'.buildBare.isOk = true := by
  obtain ⟨_, hbuild⟩ := Checked.isOk_iff.1 hd
  obtain ⟨data, hdata, rfl, hlength⟩ := buildBare_eq_ok_iff.1 hbuild
  obtain ⟨signers, hdata', hperm, -⟩ := signedData_of_rearranged h hdata
  have hsize := length_encode_of_perm hperm
  exact Checked.isOk_iff.2 ⟨_, buildBare_eq_ok_iff.2 ⟨_, hdata', rfl, hsize.trans_le hlength⟩⟩

theorem isOk_build_of_rearranged (h : d.Rearranged d') (hd : d.build.isOk = true) :
    d'.build.isOk = true := by
  obtain ⟨_, hbuild⟩ := Checked.isOk_iff.1 hd
  obtain ⟨data, hdata, hlength, rfl, hmax⟩ := build_eq_ok_iff.1 hbuild
  obtain ⟨signers, hdata', hperm, -⟩ := signedData_of_rearranged h hdata
  have hsize := length_encode_of_perm hperm
  have hwrapped := length_ofSignedData_congr hsize
  exact Checked.isOk_iff.2
    ⟨_, build_eq_ok_iff.2 ⟨_, hdata', hsize.trans_le hlength, rfl, hwrapped.trans_le hmax⟩⟩

theorem signedData_eq_of_rearranged (h : d.Rearranged d') (hd : d.Untied)
    (hdata : d.signedData = .ok data) : d'.signedData = .ok data := by
  obtain ⟨signers, hdata', -, hsame⟩ := signedData_of_rearranged h hdata
  rw [hdata', ← hsame hd]

/-- **The order of a draft does not matter.** Two drafts about the same content, with the same
signers in some order and with the same certificates however often they are mentioned, both make a
blob or neither does. Unless signers are tied, the bytes are the same, wrapped and bare. -/
theorem build_eq_of_rearranged (h : d.Rearranged d') :
    d.build.isOk = d'.build.isOk ∧ d.buildBare.isOk = d'.buildBare.isOk ∧
      (d.Untied → ∀ bytes, (d.build = .ok bytes ↔ d'.build = .ok bytes) ∧
        (d.buildBare = .ok bytes ↔ d'.buildBare = .ok bytes)) := by
  refine ⟨?_, ?_, fun hd bytes ↦ ?_⟩
  · exact Bool.eq_iff_iff.2 ⟨isOk_build_of_rearranged h, isOk_build_of_rearranged h.symm⟩
  · exact Bool.eq_iff_iff.2 ⟨isOk_buildBare_of_rearranged h, isOk_buildBare_of_rearranged h.symm⟩
  · have hsame : ∀ data, d.signedData = .ok data ↔ d'.signedData = .ok data := fun data ↦
      ⟨signedData_eq_of_rearranged h hd, signedData_eq_of_rearranged h.symm (hd.of_rearranged h)⟩
    simp only [build_eq_ok_iff, buildBare_eq_ok_iff, hsame, and_self]

def otherCertificate (serial : Bytes) : Certificate :=
  { smallCertificate with tbs := { smallCertificate.tbs with serial } }

/-- Two signers, and one more certificate. -/
def pairDraft : Draft where
  content := [0x66, 0x77]
  detached := false
  signers :=
    [⟨Rsa.sampleKey, smallCertificate, .sha256, true⟩,
      ⟨Rsa.sampleKey, otherCertificate [2], .sha256, false⟩]
  extra := [otherCertificate [3]]

/-- The same the other way round, with all certificates mentioned once more. -/
def reversedDraft : Draft where
  content := [0x66, 0x77]
  detached := false
  signers :=
    [⟨Rsa.sampleKey, otherCertificate [2], .sha256, false⟩,
      ⟨Rsa.sampleKey, smallCertificate, .sha256, true⟩]
  extra := [otherCertificate [3], smallCertificate, otherCertificate [2], otherCertificate [3]]

/-- Both make the same blob. -/
theorem build_eq_of_rearranged_reversed :
    pairDraft.Rearranged reversedDraft ∧ pairDraft.Untied ∧
      ∃ bytes, pairDraft.build = .ok bytes ∧ reversedDraft.build = .ok bytes := by
  have hrearranged : pairDraft.Rearranged reversedDraft :=
    { content := rfl
      detached := rfl
      signers := .swap _ _ _
      certs := fun c ↦ by simp [pairDraft, reversedDraft]; tauto }
  have huntied : pairDraft.Untied := untied_of_distinct (by decide +kernel)
  have hbuild : pairDraft.build.isOk = true := by decide +kernel
  obtain ⟨bytes, hbytes⟩ := Checked.isOk_iff.1 hbuild
  obtain ⟨-, -, hsame⟩ := build_eq_of_rearranged hrearranged
  exact ⟨hrearranged, huntied, bytes, hbytes, (hsame huntied bytes).1.1 hbytes⟩

/-- Another key with the modulus of the sample key. -/
def twinKey : Rsa.PrivateKey :=
  let p := Rsa.sampleKey.firstFactor
  let q := Rsa.sampleKey.secondFactor
  { Rsa.sampleKey with exponent := 5, privateExponent := ((p - 1) * (q - 1) + 1) / 5 }

/-- A draft whose signers have one certificate and different keys. -/
def tiedDraft : Draft where
  content := [0x66, 0x77]
  detached := false
  signers :=
    [⟨Rsa.sampleKey, smallCertificate, .sha256, false⟩, ⟨twinKey, smallCertificate, .sha256, false⟩]
  extra := []

/-- Tied signers stay in the order of the draft. -/
theorem buildBare_ne_of_tied :
    twinKey.IsSound ∧ tiedDraft.Rearranged { tiedDraft with signers := tiedDraft.signers.reverse } ∧
      tiedDraft.buildBare.isOk = true ∧
      tiedDraft.buildBare ≠
        { tiedDraft with signers := tiedDraft.signers.reverse }.buildBare := by
  have hrearranged :
      tiedDraft.Rearranged { tiedDraft with signers := tiedDraft.signers.reverse } :=
    { content := rfl
      detached := rfl
      signers := .swap _ _ _
      certs := fun _ ↦ Iff.rfl }
  exact ⟨by decide +kernel, hrearranged, by decide +kernel, by decide +kernel⟩

end Draft

end Blob

end SignedFirmware
