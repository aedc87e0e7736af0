import SignedFirmware.Credential.Issue
import SignedFirmware.Proofs.X509.Time

/-!
# What new certificates say

A new certificate is put together from the key that it is for, the certificate and the key of the
issuer, and a role. `Issued` is all that the rest of the library needs to know of this: who is named
as the issuer, whose key is in the certificate, what the extensions are, and what the signature was
made over. The texts and numbers that go in besides have no part in it.
-/

namespace SignedFirmware.Credential

open X509

/-- A certificate was issued for a key. -/
structure Issued (key : Rsa.PrivateKey) (issuer : Option Issuer) (ca : Bool) (c : Certificate) :
    Prop where
  /-- It holds the public half of the key. -/
  publicKey : c.tbs.publicKey = key.publicKey.toInfo
  /-- It names the issuer, and itself if there is none. -/
  named : c.issuer = (issuer.map fun i ↦ i.certificate.subject).getD c.subject
  extensions : c.tbs.extensions = some (newExtensions (roleOf issuer ca) key.publicKey.toInfo
    ((issuer.map Issuer.key).getD key).publicKey.toInfo)
  algorithm : c.signatureAlgorithm = signingAlgorithm
  /-- What is signed has an encoding. -/
  short : c.signedBytes.length ≤ Der.maxLength
  /-- The key of the issuer signed it, and its own key if there is none. -/
  signed : ∃ signature, c.signature = ⟨0, signature⟩ ∧
    ((issuer.map Issuer.key).getD key).sign? .sha256
      (Digest.Algorithm.sha256.hash c.signedBytes) = some signature

variable {key : Rsa.PrivateKey} {issuer : Option Issuer} {ca : Bool} {c : Certificate}

theorem issued_of_issue {serial : Nat} {validity : Validity} {subject : String}
    (h : issue key issuer serial validity subject ca = .ok c) : Issued key issuer ca c := by
  rw [issue] at h
  split at h
  · cases h
  · dsimp only at h
    split at h
    · rename_i signature hsignature
      cases h
      obtain ⟨bytes, hbytes, hsign⟩ := Option.bind_eq_some_iff.1 hsignature
      obtain ⟨hshort, rfl⟩ := Der.Element.encode?_eq_some_iff.1 hbytes
      exact ⟨rfl, rfl, rfl, rfl, hshort, signature, rfl, hsign⟩
    · cases h

/-! ## Validity -/

theorem validity_of_issue {serial : Nat} {validity : Validity} {subject : String}
    (h : issue key issuer serial validity subject ca = .ok c) : c.tbs.validity = validity := by
  rw [issue] at h
  split at h
  · cases h
  · dsimp only at h
    split at h
    · cases h
      rfl
    · cases h

/-- A validity begins at the second that a clock shows and lasts for a number of seconds. -/
structure Lasts (v : Validity) (now : Instant) (seconds : Nat) : Prop where
  isValid_notBefore : v.notBefore.value.IsValid
  isValid_notAfter : v.notAfter.value.IsValid
  starts : v.notBefore.toUnix = now.seconds
  ends : v.notAfter.toUnix = v.notBefore.toUnix + seconds

variable {now : Instant} {seconds : Nat} {v : Validity}

theorem lasts_of_validityFor (h : validityFor now seconds = .ok v) : Lasts v now seconds := by
  rw [validityFor] at h
  split at h
  · rename_i notBefore notAfter hbefore hafter
    cases h
    obtain ⟨hvalid, hfrom⟩ := Time.isValid_of_ofInstant? hbefore
    obtain ⟨hvalid', hto⟩ := Time.isValid_of_ofInstant? hafter
    exact ⟨hvalid, hvalid', hfrom, by rw [hto, hfrom, Instant.seconds_later]⟩
  · cases h

/-- There is a validity if the calendar goes up to the end of it. It goes up to the start, then. -/
theorem exists_validityFor_iff :
    (∃ v, validityFor now seconds = .ok v) ↔ (now.later seconds).IsOnCalendar := by
  rw [← Time.isSome_ofInstant?_iff]
  constructor
  · rintro ⟨v, h⟩
    rw [validityFor] at h
    split at h
    · rename_i hafter
      exact Option.isSome_of_eq_some hafter
    · cases h
  · intro hend
    have hstart : (Time.ofInstant? now).isSome :=
      Time.isSome_ofInstant?_iff.2
        ((Nat.le_add_right _ _).trans (Time.isSome_ofInstant?_iff.1 hend))
    obtain ⟨notBefore, hbefore⟩ := Option.isSome_iff_exists.1 hstart
    obtain ⟨notAfter, hafter⟩ := Option.isSome_iff_exists.1 hend
    exact ⟨⟨notBefore, notAfter⟩, by rw [validityFor, hbefore, hafter]⟩

theorem validityFor_of_not_isOnCalendar (h : ¬(now.later seconds).IsOnCalendar) :
    validityFor now seconds = .error .certificateFields := by
  rw [validityFor]
  split
  · rename_i hafter
    exact absurd (Time.isSome_ofInstant?_iff.1 (Option.isSome_of_eq_some hafter)) h
  · rfl

/-! ## Extensions -/

theorem find?_keyUsage (role : Role) (key signer : PublicKeyInfo) :
    (newExtensions role key signer).find? (·.id = Extension.keyUsage) =
      some ⟨Extension.keyUsage, true, (Der.ofBitString role.keyUsage.bits).encode⟩ := by
  cases role <;> rfl

theorem find?_basicConstraints (role : Role) (key signer : PublicKeyInfo) :
    (newExtensions role key signer).find? (·.id = Extension.basicConstraints) =
      some ⟨Extension.basicConstraints, true,
        (BasicConstraints.toElement ⟨role.isCa, none⟩).encode⟩ := by
  cases role <;> rfl

/-- A key may be used for what the role of its certificate says. -/
theorem Issued.keyUsage (h : Issued key issuer ca c) :
    c.extensionValue? Extension.keyUsage KeyUsage.ofElement? =
      some (some (roleOf issuer ca).keyUsage) := by
  have hread : ∀ role : Role,
      Der.readAll? KeyUsage.ofElement? (Der.ofBitString role.keyUsage.bits).encode =
        some role.keyUsage := by
    intro role
    cases role <;> decide +kernel
  rw [Certificate.extensionValue?, Certificate.extension?, h.extensions, Option.getD_some,
    find?_keyUsage, Option.map_some, hread]

/-- The role says whether certificates may be signed. How far down they may go is not limited. -/
theorem Issued.basicConstraints (h : Issued key issuer ca c) :
    c.extensionValue? Extension.basicConstraints BasicConstraints.ofElement? =
      some (some ⟨(roleOf issuer ca).isCa, none⟩) := by
  have hread : ∀ isCa, Der.readAll? BasicConstraints.ofElement?
      (BasicConstraints.toElement ⟨isCa, none⟩).encode = some ⟨isCa, none⟩ := by
    intro isCa
    cases isCa <;> decide +kernel
  rw [Certificate.extensionValue?, Certificate.extension?, h.extensions, Option.getD_some,
    find?_basicConstraints, Option.map_some, hread]

/-- New certificates have no extensions but those that the checks of a chain understand. -/
theorem Issued.handled (h : Issued key issuer ca c) :
    ∀ x ∈ c.tbs.extensions.getD [], x.id ∈ Extension.handled := by
  have hroles : ∀ (role : Role) (k signer : PublicKeyInfo),
      ∀ id ∈ (newExtensions role k signer).map Extension.id, id ∈ Extension.handled := by
    intro role k signer
    cases role <;> simp [newExtensions, Extension.handled]
  intro x hx
  rw [h.extensions, Option.getD_some] at hx
  exact hroles _ _ _ _ (List.mem_map_of_mem hx)

end SignedFirmware.Credential
