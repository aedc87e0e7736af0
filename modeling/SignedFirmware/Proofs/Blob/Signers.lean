import SignedFirmware.Proofs.Blob.Embedded
import SignedFirmware.Proofs.Blob.Size

/-!
# The certificates of all signers

Each signer is given the first certificate that they name, and the first signer who names none of
them is the one that the failure is about (`signerCertificates_eq_error_iff`). As certificates of a
blob always fit into a list, nothing else can go wrong, and the list that comes out holds one record
for each signer, the last signer first (`signers_of_certificates`). That it is put together and then
taken apart again to find the trusted certificate makes no difference, also where the count in front
has wrapped.
-/

namespace SignedFirmware.Blob

open Cms (SignedData SignerId SignerInfo)
open Trust (certificateOf? signerCertificate_eq_ok_iff signerCertificates_eq_ok_iff)
open X509 (Certificate Extension)

variable {data : Bytes} {d : SignedData}

/-! ## Signers without a certificate -/

/-- A signer names one of the certificates that go along. -/
def Named (d : SignedData) (signer : SignerInfo) : Prop :=
  ∃ c ∈ d.standardCertificates, signer.id.Matches c

/-- The signer at a position names none of the certificates, and all signers before do. -/
def FirstUnnamed (d : SignedData) (i : Nat) : Prop :=
  (∃ signer, d.signers[i]? = some signer ∧ ¬Named d signer) ∧
    ∀ j < i, ∀ signer, d.signers[j]? = some signer → Named d signer

theorem named_iff {signer : SignerInfo} :
    Named d signer ↔ ∃ c, certificateOf? d signer = some c := by
  rw [← Option.isSome_iff_exists, certificateOf?, List.find?_isSome, Named]
  simp only [decide_eq_true_eq]

theorem signerCertificate_eq_error_iff {position : Nat} {signer : SignerInfo} {e : Error} :
    d.signerCertificate position signer = .error e ↔
      ¬Named d signer ∧ e = .signerCertificateNotFound position := by
  rw [named_iff, SignedData.signerCertificate, certificateOf?]
  split
  · rename_i c hfound
    simp [hfound]
  · rename_i hnone
    simp [hnone, eq_comm]

theorem signerCertificates_eq_error_iff {e : Error} :
    d.signerCertificates = .error e ↔
      (d.signers = [] ∧ e = .noSigners) ∨
        ∃ i, FirstUnnamed d i ∧ e = .signerCertificateNotFound i := by
  rw [SignedData.signerCertificates]
  by_cases hnil : d.signers = []
  · simp [hnil, FirstUnnamed, eq_comm]
  · rw [if_neg hnil, Checked.mapM_eq_error_iff]
    simp only [hnil, false_and, false_or, List.getElem?_zipIdx, Nat.zero_add,
      Option.map_eq_some_iff, exists_exists_and_eq_and, forall_exists_index, and_imp,
      forall_apply_eq_imp_iff₂, signerCertificate_eq_error_iff, signerCertificate_eq_ok_iff,
      ← named_iff]
    constructor
    · rintro ⟨i, ⟨signer, hsigner, hunnamed, rfl⟩, hbefore⟩
      exact ⟨i, ⟨⟨signer, hsigner, hunnamed⟩, hbefore⟩, rfl⟩
    · rintro ⟨i, ⟨⟨signer, hsigner, hunnamed⟩, hbefore⟩, rfl⟩
      exact ⟨i, ⟨signer, hsigner, hunnamed, rfl⟩, hbefore⟩

theorem exists_signerCertificates_iff :
    (∃ certs, d.signerCertificates = .ok certs) ↔
      d.signers ≠ [] ∧ ∀ signer ∈ d.signers, Named d signer := by
  simp only [signerCertificates_eq_ok_iff, exists_and_left, exists_forall₂_iff, named_iff]

/-- A certificate whose key identifier does not read has none. -/
theorem not_matches_of_unreadable {c : Certificate} {x : Extension} (key : Bytes)
    (hx : c.extension? Extension.subjectKeyIdentifier = some x)
    (hbroken : Der.readAll? Der.octets? x.value = none) :
    ¬(SignerId.keyIdentifier key).Matches c := by
  simp [SignerId.Matches, Certificate.extensionValue?, hx, hbroken]

/-! ## The list -/

theorem mem_standardCertificates_of_signer {certs : List Certificate}
    (h : d.signerCertificates = .ok certs) : ∀ c ∈ certs, c ∈ d.standardCertificates := by
  intro c hc
  obtain ⟨-, hcerts⟩ := signerCertificates_eq_ok_iff.1 h
  obtain ⟨signer, hfound⟩ := exists_forall₂_iff.1 ⟨d.signers, hcerts.flip⟩ c hc
  exact List.mem_of_find?_eq_some hfound

theorem signers_of_failure (hd : read data = .ok d) {e : Error}
    (h : d.signerCertificates = .error e) : signers data = .error e :=
  Checked.bind_eq_error_iff.2 (.inr ⟨d, hd, Checked.bind_eq_error_iff.2 (.inl h)⟩)

/-- The list has the certificates of all signers, the last one first, and the trusted one is that of
the first signer. -/
theorem signers_of_certificates (hd : read data = .ok d) {certs : List Certificate}
    (hcerts : d.signerCertificates = .ok certs) :
    CertList.Short (certs.reverse.map Certificate.encode) ∧
      ∃ first, certs.head? = some first ∧
        signers data =
          .ok ⟨CertList.ofRecords (certs.reverse.map Certificate.encode), first.encode⟩ := by
  obtain ⟨hne, hfound⟩ := signerCertificates_eq_ok_iff.1 hcerts
  have hshort : CertList.Short (certs.reverse.map Certificate.encode) :=
    short_encode hd fun c hc ↦ mem_standardCertificates_of_signer hcerts c (List.mem_reverse.1 hc)
  obtain ⟨first, more, rfl⟩ : ∃ first more, certs = first :: more := by
    refine List.exists_cons_of_ne_nil ?_
    rintro rfl
    exact hne (List.forall₂_nil_right_iff.1 hfound)
  refine ⟨hshort, first, rfl, ?_⟩
  have hlist : listOf (first :: more).reverse =
      .ok (some (CertList.ofRecords ((first :: more).reverse.map Certificate.encode))) :=
    listOf_eq_ok_iff.2 ⟨hshort, (if_neg (by simp)).symm⟩
  have hlast : ((first :: more).reverse.map Certificate.encode).getLast? =
      some first.encode := by simp
  rw [← CertList.records_ofRecords hshort] at hlast
  refine Checked.bind_eq_ok_iff.2 ⟨d, hd, Checked.bind_eq_ok_iff.2 ⟨_, hcerts, ?_⟩⟩
  refine Checked.bind_eq_ok_iff.2 ⟨_, hlist, ?_⟩
  dsimp only
  rw [hlast]
  rfl

/-- The record of a signer is the certificate that was found for them. -/
theorem getElem?_records {certs : List Certificate} (hcerts : d.signerCertificates = .ok certs)
    {j : Nat} (hj : j < d.signers.length) :
    ∃ signer c, d.signers[d.signers.length - 1 - j]? = some signer ∧
      certificateOf? d signer = some c ∧
        (certs.reverse.map Certificate.encode)[j]? = some c.encode := by
  obtain ⟨-, hfound⟩ := signerCertificates_eq_ok_iff.1 hcerts
  have hlength : d.signers.length = certs.length := hfound.length_eq
  have hcert : certs.length - 1 - j < certs.length := by omega
  have hsigner : certs.length - 1 - j < d.signers.length := hlength ▸ hcert
  rw [hlength] at hj ⊢
  refine ⟨_, _, List.getElem?_eq_getElem hsigner, hfound.get hsigner hcert, ?_⟩
  rw [List.getElem?_map, List.getElem?_reverse hj, List.getElem?_eq_getElem hcert]
  rfl

/-- **The certificates of all signers.** Take any blob that is read. There is a list if and only if
there are signers and each names a certificate. Then it has one record for each signer, however many
there are, the first certificate that they name, the last signer first; the count is their number
modulo 256; and the trusted certificate is that of the first signer, which is the last record.
Otherwise the failure is that there are no signers, or else it is about the first signer who names
no certificate. A certificate whose key identifier does not read is never named by one, which is not
a failure. -/
theorem signers_exact (h : read data = .ok d) :
    ((∃ s, signers data = .ok s) ↔
      1 ≤ d.signers.length ∧ ∀ signer ∈ d.signers, Named d signer) ∧
    (∀ s, signers data = .ok s →
      s.list.records.length = d.signers.length ∧
      s.list.count.toNat = d.signers.length % 256 ∧
      (∀ j < d.signers.length, ∃ signer c,
        d.signers[d.signers.length - 1 - j]? = some signer ∧ certificateOf? d signer = some c ∧
          s.list.records[j]? = some c.encode) ∧
      s.list.records.getLast? = some s.trusted ∧
      ∃ first c, d.signers.head? = some first ∧ certificateOf? d first = some c ∧
        s.trusted = c.encode) ∧
    (signers data = .error .noSigners ↔ d.signers.length = 0) ∧
    (∀ i, signers data = .error (.signerCertificateNotFound i) ↔ FirstUnnamed d i) ∧
    (∀ e, signers data = .error e → e = .noSigners ∨ ∃ i, e = .signerCertificateNotFound i) ∧
    ∀ (c : Certificate) (x : Extension) (key : Bytes),
      c.extension? Extension.subjectKeyIdentifier = some x →
        Der.readAll? Der.octets? x.value = none → ¬(SignerId.keyIdentifier key).Matches c := by
  -- the outcome is decided as soon as the certificates are found
  have hok : (∃ s, signers data = .ok s) ↔ ∃ certs, d.signerCertificates = .ok certs := by
    cases hcerts : d.signerCertificates with
    | error e => simp [signers_of_failure h hcerts]
    | ok certs =>
      obtain ⟨-, first, -, hsigners⟩ := signers_of_certificates h hcerts
      simp [hsigners]
  have herror : ∀ e, signers data = .error e ↔ d.signerCertificates = .error e := by
    intro e
    cases hcerts : d.signerCertificates with
    | error e' => rw [signers_of_failure h hcerts, Except.error.injEq, Except.error.injEq]
    | ok certs =>
      obtain ⟨-, first, -, hsigners⟩ := signers_of_certificates h hcerts
      simp [hsigners]
  refine ⟨?_, ?_, ?_, ?_, ?_, ?_⟩
  · rw [hok, exists_signerCertificates_iff, ← List.length_pos_iff]
    exact Iff.rfl
  · intro s hs
    obtain ⟨certs, hcerts⟩ := hok.1 ⟨s, hs⟩
    obtain ⟨hshort, first, hfirst, hsigners⟩ := signers_of_certificates h hcerts
    obtain rfl := Except.ok.inj (hsigners.symm.trans hs)
    obtain ⟨-, hfound⟩ := signerCertificates_eq_ok_iff.1 hcerts
    have hrecords := CertList.records_ofRecords hshort
    dsimp only
    rw [hrecords]
    refine ⟨?_, ?_, fun j hj ↦ getElem?_records hcerts hj, ?_, ?_⟩
    · rw [List.length_map, List.length_reverse, hfound.length_eq]
    · rw [CertList.ofRecords, List.length_map, List.length_reverse, hfound.length_eq]
      exact UInt8.toNat_ofNat'
    · rw [List.getLast?_map, List.getLast?_reverse, hfirst]
      rfl
    · obtain ⟨more, rfl⟩ := List.head?_eq_some_iff.1 hfirst
      obtain ⟨signer, _, hsigner, -, hall⟩ := List.forall₂_cons_right_iff.1 hfound
      exact ⟨signer, first, by rw [hall]; rfl, hsigner, rfl⟩
  · rw [herror, signerCertificates_eq_error_iff, List.length_eq_zero_iff]
    simp
  · intro i
    rw [herror, signerCertificates_eq_error_iff]
    simp
  · intro e he
    rcases signerCertificates_eq_error_iff.1 ((herror e).1 he) with ⟨-, rfl⟩ | ⟨i, -, rfl⟩
    · exact .inl rfl
    · exact .inr ⟨i, rfl⟩
  · intro c x key
    exact not_matches_of_unreadable key

/-- A certificate with a serial number and an extension that tells which key it has. -/
def keyedCertificate (serial : UInt8) (value : Bytes) : Certificate :=
  { smallCertificate with
    tbs :=
      { smallCertificate.tbs with
        serial := [serial]
        extensions := some [⟨Extension.subjectKeyIdentifier, false, value⟩] } }

/-- One who signs with a certificate. -/
def namingSigner (id : SignerId) : SignerInfo where
  version := 1
  id
  digestAlgorithm := smallCertificate.signatureAlgorithm
  signedAttributes := none
  signatureAlgorithm := smallCertificate.signatureAlgorithm
  signature := []
  unsignedAttributes := none

/-- Three signers with two certificates. The first one names a key. The certificate that is in front
of the one with that key has a key identifier that does not read. -/
def sharedData : SignedData :=
  { sampleData with
    certificates := some [
      .certificate (keyedCertificate 2 [0x05, 0x00]),
      .certificate (keyedCertificate 1 (Der.ofOctets [0x77]).encode)]
    signers := [
      namingSigner (.keyIdentifier [0x77]),
      namingSigner (.issuerAndSerial smallCertificate.issuer [1]),
      namingSigner (.issuerAndSerial smallCertificate.issuer [2])] }

/-- The first two signers share a certificate, and it is there twice. -/
theorem signers_exact_sharedData :
    read sharedData.encode = .ok sharedData ∧
      (∃ s, signers sharedData.encode = .ok s ∧ s.list.records.length = 3 ∧
        s.list.records.getLast? = some s.trusted) ∧
      ∀ key, ¬(SignerId.keyIdentifier key).Matches (keyedCertificate 2 [0x05, 0x00]) := by
  have hread : read sharedData.encode = .ok sharedData := by decide +kernel
  have hnamed : ∀ signer ∈ sharedData.signers, ∃ c ∈ sharedData.standardCertificates,
      signer.id.Matches c := by decide +kernel
  have hbroken : Der.readAll? Der.octets? [0x05, 0x00] = none := by decide +kernel
  obtain ⟨hok, hlist, -, -, -, hunreadable⟩ := signers_exact hread
  obtain ⟨s, hs⟩ := hok.2 ⟨by decide, hnamed⟩
  obtain ⟨hlength, -, -, hlast, -⟩ := hlist s hs
  exact ⟨hread, ⟨s, hs, hlength, hlast⟩, fun key ↦ hunreadable _ _ key rfl hbroken⟩

end SignedFirmware.Blob
