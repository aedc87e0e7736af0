import SignedFirmware.Credential.Key
import SignedFirmware.Proofs.Der.Value
import SignedFirmware.Proofs.Except

/-!
# When the operations on keys succeed

A key that comes out of a certificate is never too large, so of the three checks in front of a
signature only those on the digest and on the signature itself are left.
-/

namespace SignedFirmware

namespace Rsa.PublicKey

theorem size_le_of_lt {k : PublicKey} (h : k.modulus < 1 <<< maxBits) :
    k.size ≤ Credential.maxKeySize := by
  rw [size, Bytes.length_ofNat_le_iff]
  exact lt_of_lt_of_eq h (by decide +kernel)

theorem lt_of_ofInfo? {info : X509.PublicKeyInfo} {k : PublicKey} (h : ofInfo? info = some k) :
    k.modulus < 1 <<< maxBits := by
  rw [ofInfo?, Option.ite_none_right_eq_some] at h
  simp only [Option.bind_eq_bind, Option.bind_eq_some_iff, Option.ite_none_right_eq_some,
    Option.some.injEq] at h
  obtain ⟨-, _, -, _, -, ⟨hlt, -⟩, rfl⟩ := h
  exact hlt

theorem length_encode_ofNat_le {n : Nat} (h : (Bytes.ofNat n).length ≤ Credential.maxKeySize) :
    (Der.ofNat n).encode.length ≤ 0x1000 := by
  have hcontent : (Der.ofNat n).content.length ≤ Credential.maxKeySize + 1 :=
    (Der.length_natContent_le n).trans (Nat.succ_le_succ h)
  have hlength := Der.length_lengthBytes_le (hcontent.trans (by decide))
  rw [Der.Element.length_encode]
  rw [Credential.maxKeySize] at hcontent
  omega

/-- A key that can be worked with is found again in the certificate that it is put into, unless it
is too large. -/
theorem ofInfo?_toInfo {k : PublicKey} (hsound : k.IsSound)
    (hsize : k.size ≤ Credential.maxKeySize) : ofInfo? k.toInfo = some k := by
  have hmodulus : k.modulus < 1 <<< maxBits :=
    lt_of_lt_of_eq (Bytes.length_ofNat_le_iff.1 hsize) (by decide +kernel)
  have hexponent : (Bytes.ofNat k.exponent).length ≤ Credential.maxKeySize :=
    (Bytes.length_ofNat_mono hsound.1.le).trans hsize
  have hcontent : k.toElement.content.length ≤ 0x2000 := by
    simp only [toElement, Der.Element.ofElements, List.flatMap_cons, List.flatMap_nil,
      List.append_nil, List.length_append]
    exact Nat.add_le_add (length_encode_ofNat_le hsize) (length_encode_ofNat_le hexponent)
  have hfits : k.toElement.Fits := ⟨Der.Tag.isKnown_sequence, hcontent.trans (by decide)⟩
  have hlength : k.toElement.encode.length ≤ Der.maxLength := by
    have hprefix := Der.length_lengthBytes_le hfits.short
    rw [Der.Element.length_encode, Der.maxLength]
    omega
  have hdecode : ofElement? k.toElement = some k := by
    refine Der.readsAs_sequence ?_ (fun _ ↦ ?_) hfits
    · simp [Der.ofNat]
    · refine Der.Fields.bind_eq_some (Der.Fields.field_eq_some (Der.nat?_ofNat _) _) ?_
      exact Der.Fields.bind_eq_some (Der.Fields.field_eq_some (Der.nat?_ofNat _) _) rfl
  have hread : Der.readAll? ofElement? k.toElement.encode = some k :=
    Der.readAll?_eq_some_iff.2 ⟨hlength, k.toElement, hfits, rfl, hdecode⟩
  rw [ofInfo?, toInfo, if_pos rfl]
  simp [Der.BitString.wholeOctets?, hread, hmodulus, hsound]

end Rsa.PublicKey

namespace Credential

variable {a : Digest.Algorithm} {digest signature : Bytes}

theorem publicKey_eq_ok_iff {c : X509.Certificate} {k : Rsa.PublicKey} :
    publicKey c = .ok k ↔ Rsa.PublicKey.ofInfo? c.tbs.publicKey = some k := by
  rw [publicKey]
  split <;> simp_all

theorem verify_eq_ok_iff {k : Rsa.PublicKey} {u : Unit} :
    verify k a digest signature = .ok u ↔
      digest.length = a.size ∧ k.size ≤ maxKeySize ∧ k.Verifies a digest signature := by
  simp only [verify, checkDigestSize, checkKeySize, Checked.bind_eq_ok_iff]
  by_cases hdigest : digest.length = a.size
  · by_cases hsize : k.size ≤ maxKeySize
    · by_cases hverifies : k.Verifies a digest signature <;> simp [hdigest, hsize, hverifies]
    · simp [hdigest, hsize]
  · simp [hdigest]

/-- Of a digest and a key of the right sizes, a signature is refused for what it is. -/
theorem verify_eq_error {k : Rsa.PublicKey} (hdigest : digest.length = a.size)
    (hsize : k.size ≤ maxKeySize) (hverifies : ¬k.Verifies a digest signature) :
    verify k a digest signature = .error .verify := by
  rw [verify, checkDigestSize, if_pos hdigest, checkKeySize, if_pos hsize, if_neg hverifies]
  rfl

theorem sign_eq_ok_iff {k : Rsa.PrivateKey} :
    sign k a digest = .ok signature ↔
      digest.length = a.size ∧ isWeak a = false ∧ k.size ≤ maxKeySize ∧
        k.sign? a digest = some signature := by
  simp only [sign, checkDigestSize, checkKeySize, Checked.bind_eq_ok_iff]
  by_cases hdigest : digest.length = a.size
  · by_cases hsize : k.size ≤ maxKeySize
    · cases hweak : isWeak a <;> cases hsign : k.sign? a digest <;>
        simp [hdigest, hsize, Checked.bind_eq_ok_iff]
    · cases hweak : isWeak a <;> simp [hdigest, hsize, Checked.bind_eq_ok_iff]
  · simp [hdigest]

end Credential

end SignedFirmware
