import SignedFirmware.Credential.Certificate
import SignedFirmware.Proofs.Except
import SignedFirmware.Proofs.X509.Source

/-!
# What a certificate file stands for

A certificate can be put into a file in many ways. All that matters of a file is the certificate
that it is read as: its own encoding is one more file that is read as it, with or without other
bytes behind it.
-/

namespace SignedFirmware.Credential

open X509 (Certificate)

variable {file rest : Bytes} {t : Certificate}

theorem parseCertificateBytes_eq_ok_iff :
    parseCertificateBytes file = .ok t ↔ Certificate.decode? file = some t := by
  rw [parseCertificateBytes]
  cases Certificate.decode? file <;> simp

theorem parseCertificateText_eq_ok_iff :
    parseCertificateText file = .ok t ↔
      ∃ data, Pem.parse? certificateLabel file = some data ∧ Certificate.decode? data = some t := by
  rw [parseCertificateText, ← Option.bind_eq_some_iff]
  cases (Pem.parse? certificateLabel file).bind Certificate.decode? <;> simp

/-- In both forms, the certificate is read from an encoding in the end. -/
theorem exists_decode?_of_parseCertificate (h : parseCertificate file = .ok t) :
    ∃ data, Certificate.decode? data = some t := by
  rw [parseCertificate] at h
  by_cases htext : isText file = true
  · rw [if_pos htext, Checked.bind_eq_ok_iff] at h
    obtain ⟨text, -, hparse⟩ := h
    obtain ⟨data, -, hdecode⟩ := parseCertificateText_eq_ok_iff.1 hparse
    exact ⟨data, hdecode⟩
  · rw [if_neg htext] at h
    exact ⟨file, parseCertificateBytes_eq_ok_iff.1 h⟩

theorem decode?_encode_of_parseCertificate (h : parseCertificate file = .ok t) :
    Certificate.decode? t.encode = some t := by
  obtain ⟨data, hdecode⟩ := exists_decode?_of_parseCertificate h
  exact Certificate.decode?_encode_of_decode? hdecode

/-- An encoding is not taken for text: it begins with a zero, and an opening line with a dash. -/
theorem isText_encode_append (t : Certificate) (rest : Bytes) :
    isText (t.encode ++ rest) = false := by
  obtain ⟨more, hmore⟩ : ∃ more, t.encode ++ rest = 0x30 :: more := ⟨_, rfl⟩
  have hdashes : Bytes.ofString "-----BEGIN" = 0x2d :: Bytes.ofString "----BEGIN" := by
    decide +kernel
  rw [isText, hmore, Bytes.trimStart, List.dropWhile_cons_of_neg (by decide), hdashes]
  rfl

/-- A file with the encoding of a certificate and other bytes behind it is read as the certificate,
up to the longest input that has a length. A longer one is not read. -/
theorem parseCertificate_encode_append (h : parseCertificate file = .ok t) (rest : Bytes) :
    parseCertificate (t.encode ++ rest) =
      if (t.encode ++ rest).length ≤ Der.maxLength then .ok t else .error .loadCertificate := by
  rw [parseCertificate, isText_encode_append, if_neg Bool.false_ne_true]
  by_cases hsize : (t.encode ++ rest).length ≤ Der.maxLength
  · rw [if_pos hsize, parseCertificateBytes_eq_ok_iff]
    exact Certificate.decode?_append (decode?_encode_of_parseCertificate h) hsize
  · rw [if_neg hsize, parseCertificateBytes,
      Certificate.decode?_eq_none_of_long (Nat.not_le.1 hsize)]

end SignedFirmware.Credential
