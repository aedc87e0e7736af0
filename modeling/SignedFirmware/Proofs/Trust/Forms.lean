import SignedFirmware.Blob.Signers
import SignedFirmware.Proofs.Blob.Signature
import SignedFirmware.Proofs.Trust.Content

/-!
# One blob in three forms

A blob may come bare, wrapped, or wrapped with padding behind it, and nobody who uses it can tell
which. Every operation on a blob begins by reading it, and goes on with the signed data alone; the
bytes are not looked at again. So it is enough that the three forms are read as one piece of signed
data (`Blob.read_wrapped_append`). A trusted certificate is read in the same manner, with whatever
stands behind it left alone.
-/

namespace SignedFirmware

/-! ## Operations on one piece of signed data -/

namespace Blob

variable {data data' : Bytes}

theorem signers_congr (h : read data = read data') : signers data = signers data' := by
  rw [signers, signers, h]

theorem chain_congr (h : read data = read data') : chain data = chain data' := by
  rw [chain, chain, h]

theorem signature_congr (h : read data = read data') : signature data = signature data' := by
  rw [signature, signature, h]

theorem copySignature_congr (h : read data = read data') (buffer : Option Bytes) :
    copySignature data buffer = copySignature data' buffer :=
  copySignature_eq_of_signature (signature_congr h) buffer

end Blob

namespace Trust

open Blob (checkInput checkSize)
open Cms (SignedData)
open X509 (Certificate)

variable {signed trusted : Bytes} {d : SignedData} {c : Certificate}

/-- Once a blob and a certificate are read, only what was read of them is used. -/
theorem verifyBlob_of_read (hsigned : Blob.read signed = .ok d)
    (htrusted : Blob.readCertificate trusted = .ok c) (content : Bytes) (policy : Policy)
    (now : Instant) :
    verifyBlob signed trusted content policy now =
      checkSize content >>= fun _ ↦ verify ⟨⟨[c]⟩, policy, now⟩ d content := by
  obtain ⟨hsignedNil, hsignedSize, -⟩ := Blob.read_eq_ok_iff_opens.1 hsigned
  obtain ⟨htrustedNil, htrustedSize, -⟩ := Blob.readCertificate_eq_ok_iff.1 htrusted
  have hsignedCheck : checkInput signed = .ok () :=
    Blob.checkInput_eq_ok_iff.2 ⟨hsignedNil, hsignedSize⟩
  have htrustedCheck : checkInput trusted = .ok () :=
    Blob.checkInput_eq_ok_iff.2 ⟨htrustedNil, htrustedSize⟩
  have hstore : Store.ofBytes trusted = .ok ⟨[c]⟩ := by
    rw [Store.ofBytes, htrusted]
    rfl
  rw [verifyBlob, hsignedCheck, htrustedCheck, hsigned, hstore]
  rfl

/-- What is left to check once a trusted certificate is read. -/
theorem verifyBlob_eq_ok_iff (htrusted : Blob.readCertificate trusted = .ok c) {content : Bytes}
    {policy : Policy} {now : Instant} :
    verifyBlob signed trusted content policy now = .ok () ↔
      content.length ≤ Blob.maxInputSize ∧
        ∃ d, Blob.read signed = .ok d ∧ verify ⟨⟨[c]⟩, policy, now⟩ d content = .ok () := by
  constructor
  · intro h
    obtain ⟨d, hsigned⟩ : ∃ d, Blob.read signed = .ok d := by
      simp only [verifyBlob, Checked.bind_eq_ok_iff] at h
      obtain ⟨_, -, _, -, _, -, d, hd, -⟩ := h
      exact ⟨d, hd⟩
    rw [verifyBlob_of_read hsigned htrusted, Checked.bind_eq_ok_iff] at h
    obtain ⟨_, hcheck, hverify⟩ := h
    exact ⟨Blob.checkSize_eq_ok_iff.1 hcheck, d, hsigned, hverify⟩
  · rintro ⟨hlength, d, hsigned, hverify⟩
    rw [verifyBlob_of_read hsigned htrusted, (Blob.checkSize_eq_ok_iff (u := ())).2 hlength]
    exact hverify

/-! ## The forms -/

/-- **The forms of a blob are interchangeable.** A bare blob that is read has a wrapped form. Put
any padding behind that and behind a trusted certificate, as long as they stay within the longest
content. Then every operation has the same result on the bare form, on the wrapped form and with
padding, be it a failure or not. -/
theorem forms_interchangeable (hbare : Envelope.isWrapped signed = false)
    (hsigned : Blob.read signed = .ok d) (htrusted : Blob.readCertificate trusted = .ok c) :
    ∃ wrapped, Envelope.wrap signed = .ok wrapped ∧
      ∀ padding padding' : Bytes, (wrapped ++ padding).length ≤ 2 ^ 28 - 1 →
        (trusted ++ padding').length ≤ 2 ^ 28 - 1 →
        ∀ form ∈ [signed, wrapped, wrapped ++ padding],
          Blob.read form = Blob.read signed ∧
          Blob.signers form = Blob.signers signed ∧
          Blob.chain form = Blob.chain signed ∧
          Blob.signature form = Blob.signature signed ∧
          (∀ buffer, Blob.copySignature form buffer = Blob.copySignature signed buffer) ∧
          ∀ anchor ∈ [trusted, trusted ++ padding'], ∀ content policy now,
            verifyBlob form anchor content policy now =
              verifyBlob signed trusted content policy now := by
  obtain ⟨wrapped, hwrap, hread⟩ := Blob.read_wrapped_append hbare hsigned
  refine ⟨wrapped, hwrap, fun padding padding' hsize hsize' form hform ↦ ?_⟩
  have hshort : wrapped.length ≤ Der.maxLength :=
    (List.prefix_append wrapped padding).length_le.trans hsize
  have hforms : Blob.read form = .ok d := by
    simp only [List.mem_cons, List.not_mem_nil, or_false] at hform
    rcases hform with rfl | rfl | rfl
    · exact hsigned
    · simpa using hread [] (by rwa [List.append_nil])
    · exact hread padding hsize
  have hanchors : ∀ anchor ∈ [trusted, trusted ++ padding'],
      Blob.readCertificate anchor = .ok c := by
    simp only [List.forall_mem_cons, List.not_mem_nil, false_imp_iff, implies_true, and_true]
    exact ⟨htrusted, Blob.readCertificate_append htrusted hsize'⟩
  have hsame : Blob.read form = Blob.read signed := hforms.trans hsigned.symm
  refine ⟨hsame, Blob.signers_congr hsame, Blob.chain_congr hsame, Blob.signature_congr hsame,
    Blob.copySignature_congr hsame, fun anchor hanchor content policy now ↦ ?_⟩
  -- inputs that were read are within all limits, so only what was read of them counts
  rw [verifyBlob_of_read hforms (hanchors anchor hanchor), verifyBlob_of_read hsigned htrusted]

/-- A signer of the content "fw", with nothing but their own certificate. -/
def sampleAlone : SignedData :=
  { Blob.sampleData with
    certificates := some [.certificate Chain.sampleLeaf]
    signers := [sampleSigner] }

/-- Someone who trusts the certificate of the signer accepts "fw", no matter that the blob comes
with two bytes of padding and the certificate with one. -/
theorem forms_interchangeable_sampleAlone :
    Envelope.isWrapped sampleAlone.encode = false ∧
      Blob.read sampleAlone.encode = .ok sampleAlone ∧
      Blob.readCertificate Chain.sampleLeaf.encode = .ok Chain.sampleLeaf ∧
      ∃ wrapped, Envelope.wrap sampleAlone.encode = .ok wrapped ∧
        (wrapped ++ [0, 0]).length ≤ 2 ^ 28 - 1 ∧
        (Chain.sampleLeaf.encode ++ [0]).length ≤ 2 ^ 28 - 1 ∧
        verifyBlob (wrapped ++ [0, 0]) (Chain.sampleLeaf.encode ++ [0]) [0x66, 0x77] {}
          Chain.sampleSetting.now = .ok () := by
  have hbare : Envelope.isWrapped sampleAlone.encode = false := by decide +kernel
  have hread : Blob.read sampleAlone.encode = .ok sampleAlone := by decide +kernel
  have hleaf : Blob.readCertificate Chain.sampleLeaf.encode = .ok Chain.sampleLeaf := by
    decide +kernel
  have hverify : verify ⟨⟨[Chain.sampleLeaf]⟩, {}, Chain.sampleSetting.now⟩ sampleAlone
      [0x66, 0x77] = .ok () := by
    decide +kernel
  obtain ⟨wrapped, hwrap, hsame⟩ := forms_interchangeable hbare hread hleaf
  have hlength : (Envelope.wrap sampleAlone.encode).map List.length = .ok 871 := by decide +kernel
  rw [hwrap] at hlength
  have hsize : (wrapped ++ [0, 0]).length ≤ 2 ^ 28 - 1 := by
    rw [List.length_append, Except.ok.inj hlength]
    decide
  have hsize' : (Chain.sampleLeaf.encode ++ [0]).length ≤ 2 ^ 28 - 1 := by decide +kernel
  obtain ⟨-, -, -, -, -, hverified⟩ := hsame [0, 0] [0] hsize hsize' (wrapped ++ [0, 0]) (by simp)
  refine ⟨hbare, hread, hleaf, wrapped, hwrap, hsize, hsize', ?_⟩
  rw [hverified _ (by simp), verifyBlob_of_read hread hleaf]
  exact hverify

end Trust

end SignedFirmware
