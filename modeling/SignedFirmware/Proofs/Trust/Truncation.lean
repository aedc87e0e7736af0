import SignedFirmware.Blob.Signers
import SignedFirmware.Proofs.Blob.Signature
import SignedFirmware.Trust.Verify

/-!
# Blobs that were cut off

A blob that lost its end must not pass for another blob. Wrapped input is held together by its outer
length, which announces more than is left. Bare input gives no such hold at first: it gets a new
header, and that is made for the size that is left and so is right about it. But what stands behind
a header has to be a single element (`Blob.readContentInfo?_header_eq_some_iff`), and the front of
an element is none. So in both forms it is the outer structure that does not read, unless too little
is left to tell the forms apart.

All this is about input that ends with its outer structure. Of input with padding behind it, the
padding may be cut off.
-/

namespace SignedFirmware

/-! ## Reading -/

namespace Blob

variable {data cut : Bytes} {d : Cms.SignedData} {e : Error}

/-- The failure to read input that was cut off. -/
def cutError (cut : Bytes) : Error :=
  if cut = [] then .emptyInput
  else if cut.length < Envelope.detectSize then .envelope (.tooShort cut.length)
  else .contentInfo

theorem toClass_cutError (cut : Bytes) :
    (cutError cut).toClass = if cut = [] then .invalidInput else .malformed := by
  rw [cutError]
  split
  · rfl
  · split <;> rfl

/-- The front of a bare blob is no outer structure behind the header that is made for it. -/
theorem readContentInfo?_header_of_cut (hbare : Envelope.isWrapped data = false)
    (h : read data = .ok d) (hfront : cut <+: data) (hne : cut ≠ data) :
    readContentInfo? (Envelope.header cut.length ++ cut) = none := by
  obtain ⟨-, hhigh, hreads⟩ := (read_eq_ok_iff_of_bare hbare).1 h
  obtain ⟨-, inner, hfits, rfl, -⟩ := reads_iff.1 hreads
  rw [Option.eq_none_iff_forall_ne_some]
  rintro ⟨info, rest⟩ hread
  obtain ⟨-, -, -, hcontent, hcut⟩ :=
    (readContentInfo?_header_eq_some_iff (hfront.length_le.trans hhigh)).1 hread
  obtain ⟨more, hmore⟩ := hfront
  -- of the elements that the same bytes begin with, there is one, so nothing was cut off
  rw [hcut, ← List.append_nil inner.encode] at hmore
  obtain ⟨rfl, -⟩ := Der.Element.encode_append_inj hcontent.short hfits.short hmore
  exact hne hcut

/-- What is left of a blob has a wrapped form if it is long enough to tell the forms apart, and that
form has no outer structure. -/
theorem exists_normalize_of_cut (h : read data = .ok d)
    (hend : Envelope.isWrapped data = true → ∃ info, readContentInfo? data = some (info, []))
    (hfront : cut <+: data) (hne : cut ≠ data) (hsize : Envelope.detectSize ≤ cut.length) :
    ∃ envelope, Envelope.normalize cut = .ok envelope ∧
      readContentInfo? envelope.bytes = none := by
  have hsame := Envelope.isWrapped_of_front hfront hsize
  cases hwrapped : Envelope.isWrapped data with
  | true =>
    obtain ⟨info, hinfo⟩ := hend hwrapped
    exact ⟨_, Envelope.normalize_of_isWrapped (hsame.trans hwrapped),
      Der.readFront?_eq_none_of_cut hinfo hfront hne⟩
  | false =>
    obtain ⟨-, hhigh, -⟩ := (read_eq_ok_iff_of_bare hwrapped).1 h
    exact ⟨_, (Envelope.normalize_of_bare (hsame.trans hwrapped)).2
        ⟨hsize, hfront.length_le.trans hhigh, rfl⟩,
      readContentInfo?_header_of_cut hwrapped h hfront hne⟩

/-- Input that was cut off is not read. -/
theorem read_of_cut (h : read data = .ok d)
    (hend : Envelope.isWrapped data = true → ∃ info, readContentInfo? data = some (info, []))
    (hfront : cut <+: data) (hne : cut ≠ data) : read cut = .error (cutError cut) := by
  by_cases hnil : cut = []
  · rw [hnil]
    rfl
  obtain ⟨-, hmax, -⟩ := read_eq_ok_iff_opens.1 h
  have hcheck : checkInput cut = .ok () :=
    checkInput_eq_ok_iff.2 ⟨hnil, hfront.length_le.trans hmax⟩
  rw [read, hcheck, cutError, if_neg hnil]
  by_cases hsize : cut.length < Envelope.detectSize
  · rw [if_pos hsize, normalize, Envelope.normalize, if_pos hsize]
    rfl
  · obtain ⟨envelope, hnormalize, hnone⟩ :=
      exists_normalize_of_cut h hend hfront hne (Nat.le_of_not_lt hsize)
    rw [if_neg hsize, normalize, hnormalize]
    simp only [Except.mapError, bind, Except.bind, hnone]
    rfl

/-! ## Operations -/

theorem signers_of_error (h : read data = .error e) : signers data = .error e := by
  rw [signers, h]
  rfl

theorem chain_of_error (h : read data = .error e) : chain data = .error e := by
  rw [chain, h]
  rfl

theorem signature_of_error (h : read data = .error e) : signature data = .error e := by
  rw [signature, h]
  rfl

theorem copySignature_of_error (h : read data = .error e) (buffer : Option Bytes) :
    copySignature data buffer = (.error e, buffer) :=
  copySignature_of_failure (signature_of_error h) buffer

end Blob

namespace Trust

open Cms (SignedData)

variable {data cut : Bytes} {d : SignedData} {e : Blob.Error}

theorem accepts_of_error (h : Blob.read data = .error e) (trusted content : Bytes) (now : Instant) :
    accepts data trusted content now = false := by
  rw [accepts, Bool.eq_false_iff, ne_eq, Checked.isOk_iff]
  rintro ⟨u, hverify⟩
  simp only [verifyBlob, Checked.bind_eq_ok_iff, h] at hverify
  obtain ⟨-, -, -, -, -, -, _, hread, -⟩ := hverify
  cases hread

/-- **Cutting off fails closed.** Take a blob that is read and, if it is wrapped, ends with its
outer structure. Whatever is cut off at its end, what is left is not read, which is called invalid
input if nothing is left and malformed otherwise. No operation on it succeeds, a buffer for the
signature stays as it is, and it is accepted over no content. -/
theorem cut_fails (h : Blob.read data = .ok d)
    (hend : Envelope.isWrapped data = true → ∃ info, Blob.readContentInfo? data = some (info, []))
    (hfront : cut <+: data) (hne : cut ≠ data) :
    ∃ e, Blob.read cut = .error e ∧
      e.toClass = (if cut = [] then .invalidInput else .malformed) ∧
      Blob.signers cut = .error e ∧ Blob.chain cut = .error e ∧ Blob.signature cut = .error e ∧
      (∀ buffer, Blob.copySignature cut buffer = (.error e, buffer)) ∧
      ∀ trusted content now, accepts cut trusted content now = false := by
  have hread : Blob.read cut = .error (Blob.cutError cut) := Blob.read_of_cut h hend hfront hne
  exact ⟨_, hread, Blob.toClass_cutError cut, Blob.signers_of_error hread,
    Blob.chain_of_error hread, Blob.signature_of_error hread, Blob.copySignature_of_error hread,
    accepts_of_error hread⟩

/-- The sample in wrapped form. -/
def sampleWrapped : Bytes :=
  Envelope.header Blob.sampleData.encode.length ++ Blob.sampleData.encode

/-- Without its last byte, it is malformed. -/
theorem cut_fails_sampleWrapped :
    Blob.read sampleWrapped = .ok Blob.sampleData ∧
      Blob.readContentInfo? sampleWrapped =
        some (Cms.ContentInfo.ofSignedData Blob.sampleData, []) ∧
      sampleWrapped.dropLast <+: sampleWrapped ∧ sampleWrapped.dropLast ≠ sampleWrapped ∧
      ∃ e, Blob.read sampleWrapped.dropLast = .error e ∧ e.toClass = .malformed := by
  have hread : Blob.read sampleWrapped = .ok Blob.sampleData := by decide +kernel
  have hinfo : Blob.readContentInfo? sampleWrapped =
      some (Cms.ContentInfo.ofSignedData Blob.sampleData, []) := by decide +kernel
  have hfront : sampleWrapped.dropLast <+: sampleWrapped := List.dropLast_prefix sampleWrapped
  have hne : sampleWrapped.dropLast ≠ sampleWrapped := by decide +kernel
  have hleft : sampleWrapped.dropLast ≠ [] := by decide +kernel
  obtain ⟨e, hcut, hclass, -⟩ := cut_fails hread (fun _ ↦ ⟨_, hinfo⟩) hfront hne
  exact ⟨hread, hinfo, hfront, hne, e, hcut, hclass.trans (if_neg hleft)⟩

end Trust

end SignedFirmware
