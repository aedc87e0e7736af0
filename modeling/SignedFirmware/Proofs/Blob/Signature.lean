import SignedFirmware.Blob.Signature
import SignedFirmware.Proofs.Blob.Read
import SignedFirmware.Proofs.Except

/-!
# The signature and its copies

A caller who wants the signature in a buffer calls twice: once without a buffer, for the length, and
once with a buffer of that length. For this to work, the two calls have to agree on whether there is
a signature and how long it is, and the second must not leave half of a copy behind. Both ask for
the signature in the same way and before they look at the buffer (`copySignature_of_ok`,
`copySignature_of_failure`), so that all three ways to ask for it end alike, but for the room in the
buffer (`copySignature_agrees`). Which certificates go along makes no difference.
-/

namespace SignedFirmware.Blob

open Cms (SignedData SignerInfo)

variable {data s : Bytes} {e : Error}

/-! ## The signature -/

theorem signature_eq_ok_iff : signature data = .ok s ↔
    ∃ d signer, read data = .ok d ∧ d.signers = [signer] ∧ s = signer.signature := by
  simp only [signature, Checked.bind_eq_ok_iff, singleSigner_eq_ok_iff, Checked.pure_eq_ok_iff]
  constructor
  · rintro ⟨d, hd, signer, hsigner, rfl⟩
    exact ⟨d, signer, hd, hsigner, rfl⟩
  · rintro ⟨d, signer, hd, hsigner, rfl⟩
    exact ⟨d, hd, signer, hsigner, rfl⟩

theorem signature_eq_error_iff : signature data = .error e ↔
    read data = .error e ∨
      ∃ d, read data = .ok d ∧ d.signers.length ≠ 1 ∧ e = .notOneSigner d.signers.length := by
  simp only [signature, Checked.bind_eq_error_iff, singleSigner_eq_error_iff]
  constructor
  · rintro (h | ⟨d, hd, hcount | ⟨signer, -, hpure⟩⟩)
    · exact .inl h
    · exact .inr ⟨d, hd, hcount⟩
    · cases hpure
  · rintro (h | ⟨d, hd, hcount⟩)
    · exact .inl h
    · exact .inr ⟨d, hd, .inl hcount⟩

/-- Only the signers of a blob count, and not what else is in it. -/
theorem signature_eq_of_signers {data' : Bytes} {d d' : SignedData} (h : read data = .ok d)
    (h' : read data' = .ok d') (hsigners : d.signers = d'.signers) :
    signature data = signature data' := by
  rw [signature, signature, h, h']
  have hsingle : d.singleSigner = d'.singleSigner := by
    rw [SignedData.singleSigner, SignedData.singleSigner, hsigners]
  exact congrArg (· >>= fun signer : SignerInfo ↦ pure signer.signature) hsingle

/-! ## Copies -/

theorem copySignature_eq_of_signature {data' : Bytes} (h : signature data = signature data')
    (buffer : Option Bytes) : copySignature data buffer = copySignature data' buffer := by
  rw [copySignature.eq_def, copySignature.eq_def, h]

theorem copySignature_of_failure (h : signature data = .error e) (buffer : Option Bytes) :
    copySignature data buffer = (.error e, buffer) := by
  rw [copySignature.eq_def, h]

theorem copySignature_none_of_ok (h : signature data = .ok s) :
    copySignature data none = (.ok s.length, none) := by
  rw [copySignature.eq_def, h]

/-- A copy is made as a whole or not at all. -/
theorem copySignature_of_ok (h : signature data = .ok s) (buffer : Bytes) :
    copySignature data (some buffer) =
      if s.length ≤ buffer.length then (.ok s.length, some (s ++ buffer.drop s.length))
      else (.error (.bufferTooSmall s.length buffer.length), some buffer) := by
  rw [copySignature.eq_def, h]
  dsimp only
  rw [overwrite]
  by_cases hroom : s.length ≤ buffer.length
  · rw [if_pos hroom, if_pos hroom]
  · rw [if_neg hroom, if_neg hroom]

theorem copySignature_none_eq_ok_iff {n : Nat} {after : Option Bytes} :
    copySignature data none = (.ok n, after) ↔
      ∃ s, signature data = .ok s ∧ n = s.length ∧ after = none := by
  cases h : signature data with
  | error e => simp [copySignature_of_failure h]
  | ok s => simp [copySignature_none_of_ok h, eq_comm]

theorem copySignature_some_eq_ok_iff {buffer : Bytes} {n : Nat} {after : Option Bytes} :
    copySignature data (some buffer) = (.ok n, after) ↔
      ∃ s, signature data = .ok s ∧ n = s.length ∧ s.length ≤ buffer.length ∧
        after = some (s ++ buffer.drop s.length) := by
  cases h : signature data with
  | error e => simp [copySignature_of_failure h]
  | ok s =>
    rw [copySignature_of_ok h]
    by_cases hroom : s.length ≤ buffer.length
    · simp [hroom, eq_comm]
    · simp [hroom]

theorem buffer_eq_of_error {buffer after : Option Bytes}
    (h : copySignature data buffer = (.error e, after)) : after = buffer := by
  cases hs : signature data with
  | error e' =>
    rw [copySignature_of_failure hs] at h
    exact (Prod.mk.inj h).2.symm
  | ok s =>
    cases buffer with
    | none =>
      rw [copySignature_none_of_ok hs] at h
      cases h
    | some buffer =>
      rw [copySignature_of_ok hs] at h
      split at h
      · cases h
      · exact (Prod.mk.inj h).2.symm

/-- **The three ways to ask for the signature agree.** There is one if and only if the blob reads
and has a single signer, whose it is. Then its length is told, and it is copied to the front of any
buffer that is as long, the rest of which stays. A shorter buffer is refused, with both lengths in
the failure. If there is no signature, all ways fail alike: as the reader does, or because of the
number of signers. After any failure a buffer is as it was. So a buffer of the length that was told
is enough, and nothing but the signers of the blob matters. -/
theorem copySignature_agrees (data : Bytes) :
    (∀ s, signature data = .ok s ↔
      ∃ d signer, read data = .ok d ∧ d.signers = [signer] ∧ s = signer.signature) ∧
    (∀ n after, copySignature data none = (.ok n, after) ↔
      ∃ s, signature data = .ok s ∧ n = s.length ∧ after = none) ∧
    (∀ buffer n after, copySignature data (some buffer) = (.ok n, after) ↔
      ∃ s, signature data = .ok s ∧ n = s.length ∧ s.length ≤ buffer.length ∧
        after = some (s ++ buffer.drop s.length)) ∧
    (∀ s buffer, signature data = .ok s → buffer.length < s.length →
      copySignature data (some buffer) =
        (.error (.bufferTooSmall s.length buffer.length), some buffer)) ∧
    (∀ e, signature data = .error e ↔ read data = .error e ∨
      ∃ d, read data = .ok d ∧ d.signers.length ≠ 1 ∧ e = .notOneSigner d.signers.length) ∧
    (∀ e, signature data = .error e → ∀ buffer, copySignature data buffer = (.error e, buffer)) ∧
    (∀ e buffer after, copySignature data buffer = (.error e, after) → after = buffer) ∧
    (∀ n buffer, (copySignature data none).1 = .ok n → n ≤ buffer.length →
      (copySignature data (some buffer)).1 = .ok n) ∧
    ∀ d data' d', read data = .ok d → read data' = .ok d' → d.signers = d'.signers →
      signature data = signature data' ∧
        ∀ buffer, copySignature data buffer = copySignature data' buffer := by
  refine ⟨fun s ↦ signature_eq_ok_iff, fun n after ↦ copySignature_none_eq_ok_iff,
    fun buffer n after ↦ copySignature_some_eq_ok_iff, ?_, fun e ↦ signature_eq_error_iff,
    fun e he ↦ copySignature_of_failure he, fun e buffer after ↦ buffer_eq_of_error, ?_, ?_⟩
  · intro s buffer hs hshort
    rw [copySignature_of_ok hs, if_neg (Nat.not_le.2 hshort)]
  · intro n buffer hquery hroom
    obtain ⟨s, hs, rfl, -⟩ := copySignature_none_eq_ok_iff.1 (Prod.ext hquery rfl)
    rw [copySignature_of_ok hs, if_pos hroom]
  · intro d data' d' hd hd' hsigners
    have hsame : signature data = signature data' := signature_eq_of_signers hd hd' hsigners
    exact ⟨hsame, copySignature_eq_of_signature hsame⟩

/-- Signed data with a signer whose certificate did not go along. The signature is three bytes. -/
def uncertifiedData : SignedData :=
  { sampleData with
    signers := [
      { version := 1
        id := .keyIdentifier [0x01]
        digestAlgorithm := ⟨⟨[0x2a, 0x03, 0x04]⟩, none⟩
        signedAttributes := none
        signatureAlgorithm := ⟨⟨[0x2a, 0x03, 0x04]⟩, none⟩
        signature := [0x0a, 0x0b, 0x0c]
        unsignedAttributes := none }] }

/-- Its signature fits into four bytes, with the last one left alone, and not into two. -/
theorem copySignature_agrees_uncertifiedData :
    read uncertifiedData.encode = .ok uncertifiedData ∧
      signature uncertifiedData.encode = .ok [0x0a, 0x0b, 0x0c] ∧
      copySignature uncertifiedData.encode (some [1, 2, 3, 4]) =
        (.ok 3, some [0x0a, 0x0b, 0x0c, 4]) ∧
      copySignature uncertifiedData.encode (some [1, 2]) =
        (.error (.bufferTooSmall 3 2), some [1, 2]) := by
  have hread : read uncertifiedData.encode = .ok uncertifiedData := by decide +kernel
  obtain ⟨hsignature, -, hcopy, hshort, -⟩ := copySignature_agrees uncertifiedData.encode
  have hs : signature uncertifiedData.encode = .ok [0x0a, 0x0b, 0x0c] :=
    (hsignature _).2 ⟨uncertifiedData, _, hread, rfl, rfl⟩
  exact ⟨hread, hs, (hcopy _ _ _).2 ⟨_, hs, rfl, by decide, rfl⟩, hshort _ _ hs (by decide)⟩

end SignedFirmware.Blob
