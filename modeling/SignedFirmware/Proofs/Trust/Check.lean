import SignedFirmware.Proofs.Blob.Read
import SignedFirmware.Proofs.Credential.Key
import SignedFirmware.Proofs.Digest
import SignedFirmware.Proofs.Rsa.Signature
import SignedFirmware.Trust.Issuer

/-!
# What the checks of a chain find

Each check succeeds if and only if a certain statement about the certificates holds. The statements
stand here beside the equivalences, so that results about chains need not mention the checks.
-/

namespace SignedFirmware.Trust

open X509 (Certificate)
open Blob (Error)

/-! ## Extensions -/

theorem extension_eq_ok_iff {α : Type} {c : Certificate} {id : Oid} {decode : Der.Decoder α}
    {value : Option α} :
    extension c id decode = .ok value ↔ c.extensionValue? id decode = value.map some := by
  rw [extension]
  split <;> rename_i h <;> rw [h] <;> cases value <;> simp

/-- All critical extensions of a certificate are among those that the checks understand. -/
def HandlesCritical (c : Certificate) : Prop :=
  ∀ x ∈ c.tbs.extensions.getD [], x.critical = true → x.id ∈ X509.Extension.handled

theorem checkExtensions_eq_ok_iff {c : Certificate} {u : Unit} :
    checkExtensions c = .ok u ↔ HandlesCritical c := by
  have hfind : unhandledExtension? c = none ↔ HandlesCritical c := by
    rw [unhandledExtension?, List.find?_eq_none, HandlesCritical]
    simp
  rw [checkExtensions, ← hfind]
  split <;> simp_all

/-! ## Times and purposes -/

/-- A certificate holds at a given time. -/
def InPeriod (c : Certificate) (now : Instant) : Prop :=
  (Instant.ofSeconds c.tbs.validity.notBefore.toUnix).nanoseconds ≤ now.nanoseconds ∧
    now.nanoseconds ≤ (Instant.ofSeconds c.tbs.validity.notAfter.toUnix).nanoseconds

theorem checkTime_eq_ok_iff {c : Certificate} {now : Instant} {u : Unit} :
    checkTime c now = .ok u ↔ InPeriod c now := by
  simp only [checkTime, InPeriod]
  split
  · simp only [reduceCtorEq, false_iff]
    omega
  · split
    · simp only [reduceCtorEq, false_iff]
      omega
    · simp only [true_iff]
      omega

/-- A certificate allows a purpose: it names no purposes, or this one, or that which stands for
all. -/
def AllowsPurpose (c : Certificate) (purpose : Purpose) : Prop :=
  ∀ required, purpose.keyPurpose? = some required →
    c.extensionValue? X509.Extension.extendedKeyUsage X509.keyPurposes? = none ∨
      ∃ purposes,
        c.extensionValue? X509.Extension.extendedKeyUsage X509.keyPurposes? =
          some (some purposes) ∧
        (required ∈ purposes ∨ X509.anyPurpose ∈ purposes)

theorem any_purpose_iff {required : Oid} {purposes : List Oid} :
    (purposes.any fun p ↦ p = required ∨ p = X509.anyPurpose) = true ↔
      required ∈ purposes ∨ X509.anyPurpose ∈ purposes := by
  simp only [List.any_eq_true, decide_eq_true_eq]
  constructor
  · rintro ⟨p, hp, rfl | rfl⟩
    · exact .inl hp
    · exact .inr hp
  · rintro (h | h)
    · exact ⟨_, h, .inl rfl⟩
    · exact ⟨_, h, .inr rfl⟩

theorem checkPurpose_eq_ok_iff {c : Certificate} {purpose : Purpose} {u : Unit} :
    checkPurpose c purpose = .ok u ↔ AllowsPurpose c purpose := by
  rw [checkPurpose, AllowsPurpose]
  cases purpose.keyPurpose? with
  | none => simp
  | some required =>
    simp only [Checked.bind_eq_ok_iff, extension_eq_ok_iff, Option.some.injEq, forall_eq']
    constructor
    · rintro ⟨purposes, hpurposes, h⟩
      cases purposes with
      | none => exact .inl hpurposes
      | some purposes =>
        refine .inr ⟨purposes, hpurposes, ?_⟩
        simp only [any_purpose_iff] at h
        split at h
        · assumption
        · simp at h
    · rintro (hnone | ⟨purposes, hpurposes, hallows⟩)
      · exact ⟨none, hnone, rfl⟩
      · refine ⟨some purposes, hpurposes, ?_⟩
        simp only [any_purpose_iff]
        rw [if_pos hallows]
        rfl

/-! ## Signatures -/

/-- The key of a certificate verifies a signature of a digest. -/
def KeyVerifies (c : Certificate) (a : Digest.Algorithm) (digest signature : Bytes) : Prop :=
  ∃ k, Rsa.PublicKey.ofInfo? c.tbs.publicKey = some k ∧ k.Verifies a digest signature

/-- A key accepts one signature for a single digest. -/
theorem KeyVerifies.hash_eq {c : Certificate} {a : Digest.Algorithm}
    {message message' signature : Bytes} (h : KeyVerifies c a (a.hash message) signature)
    (h' : KeyVerifies c a (a.hash message') signature) : a.hash message = a.hash message' := by
  obtain ⟨k, hk, hverifies⟩ := h
  obtain ⟨k', hk', hverifies'⟩ := h'
  obtain rfl : k = k' := Option.some.inj (hk.symm.trans hk')
  exact hverifies.digest_eq (by simp) hverifies'

theorem publicKey_eq_ok_iff {c : Certificate} {k : Rsa.PublicKey} :
    publicKey c = .ok k ↔ Rsa.PublicKey.ofInfo? c.tbs.publicKey = some k := by
  rw [publicKey, Checked.mapError_eq_ok_iff, Credential.publicKey_eq_ok_iff]

/-- Of a digest that was computed, only the signature is left to check. -/
theorem checkKey_eq_ok_iff {c : Certificate} {a : Digest.Algorithm} {message signature : Bytes}
    {wrap : Credential.Error → Error} {u : Unit} :
    (publicKey c >>= fun k ↦
        (Credential.verify k a (a.hash message) signature).mapError wrap) = .ok u ↔
      KeyVerifies c a (a.hash message) signature := by
  simp only [Checked.bind_eq_ok_iff, publicKey_eq_ok_iff, Checked.mapError_eq_ok_iff,
    Credential.verify_eq_ok_iff, Digest.Algorithm.length_hash, true_and, KeyVerifies]
  -- a key that comes out of a certificate is small enough, so its size is no condition
  refine exists_congr fun k ↦ and_congr_right fun hk ↦ and_iff_right_of_imp fun _ ↦ ?_
  exact Rsa.PublicKey.size_le_of_lt (Rsa.PublicKey.lt_of_ofInfo? hk)

/-- A key that accepts a signature for one digest refuses it for every other. -/
theorem checkKey_eq_error {c : Certificate} {a : Digest.Algorithm}
    {message message' signature : Bytes} (wrap : Credential.Error → Error)
    (h : KeyVerifies c a (a.hash message) signature) (hne : a.hash message ≠ a.hash message') :
    (publicKey c >>= fun k ↦
        (Credential.verify k a (a.hash message') signature).mapError wrap) =
      .error (wrap .verify) := by
  have hrefused : ¬KeyVerifies c a (a.hash message') signature := fun h' ↦ hne (h.hash_eq h')
  obtain ⟨k, hk, -⟩ := h
  have hsize : k.size ≤ Credential.maxKeySize :=
    Rsa.PublicKey.size_le_of_lt (Rsa.PublicKey.lt_of_ofInfo? hk)
  have hverify : Credential.verify k a (a.hash message') signature = .error .verify :=
    Credential.verify_eq_error (Digest.Algorithm.length_hash a message') hsize
      fun hverifies ↦ hrefused ⟨k, hk, hverifies⟩
  rw [publicKey_eq_ok_iff.2 hk]
  exact congrArg (Except.mapError wrap) hverify

/-- A certificate was signed with the key of another. The algorithm outside the signed part gives
the digest. -/
def SignedBy (cert issuer : Certificate) : Prop :=
  cert.signedBytes.length ≤ Der.maxLength ∧
    ∃ (a : Digest.Algorithm) (signature : Bytes),
      cert.signatureAlgorithm.oid = a.rsaOid ∧ cert.signature = ⟨0, signature⟩ ∧
        KeyVerifies issuer a (a.hash cert.signedBytes) signature

theorem checkSignature_eq_ok_iff {cert issuer : Certificate} {u : Unit} :
    checkSignature cert issuer = .ok u ↔ SignedBy cert issuer := by
  have hwhole : ∀ s : Bytes, cert.signature.wholeOctets? = some s ↔ cert.signature = ⟨0, s⟩ := by
    intro s
    obtain ⟨unused, octets⟩ := cert.signature
    simp [Der.BitString.wholeOctets?]
  simp only [SignedBy, ← SignatureScheme.digest?_ofOid?_eq_some_iff, ← hwhole, checkSignature]
  split
  · rename_i hnone
    simp [hnone]
  · rename_i a ha
    simp only [ha, Option.some.injEq, Checked.bind_eq_ok_iff, Blob.encoded_eq_ok_iff]
    cases hs : cert.signature.wholeOctets? with
    | none => simp
    | some s =>
      constructor
      · rintro ⟨_, ⟨hshort, rfl⟩, hkey⟩
        exact ⟨hshort, a, s, rfl, rfl, checkKey_eq_ok_iff.1 hkey⟩
      · rintro ⟨hshort, _, _, rfl, ⟨⟩, hkey⟩
        exact ⟨_, ⟨hshort, rfl⟩, checkKey_eq_ok_iff.2 hkey⟩

/-! ## Issuers -/

/-- A certificate may sign certificates, with the given number of intermediates between it and the
end of the chain. -/
structure MayIssue (issuer : Certificate) (below : Nat) : Prop where
  /-- The key usage, if there is one, allows it. -/
  keyUsage :
    issuer.extensionValue? X509.Extension.keyUsage X509.KeyUsage.ofElement? = none ∨
      ∃ usage,
        issuer.extensionValue? X509.Extension.keyUsage X509.KeyUsage.ofElement? =
          some (some usage) ∧
        usage.keyCertSign = true
  /-- So do the basic constraints, and only roots of the first version do without these. -/
  constraints :
    (issuer.extensionValue? X509.Extension.basicConstraints X509.BasicConstraints.ofElement? =
        none ∧ issuer.tbs.version = .v1 ∧ issuer.IsSelfIssued) ∨
      ∃ constraints,
        issuer.extensionValue? X509.Extension.basicConstraints X509.BasicConstraints.ofElement? =
          some (some constraints) ∧
        constraints.isCa = true ∧ ∀ limit, constraints.pathLength = some limit → below ≤ limit

theorem checkKeyUsage_eq_ok_iff {issuer : Certificate} {usage : Option X509.KeyUsage} {u : Unit} :
    checkKeyUsage issuer usage = .ok u ↔ ∀ x, usage = some x → x.keyCertSign = true := by
  cases usage with
  | none => simp [checkKeyUsage]
  | some x => cases h : x.keyCertSign <;> simp [checkKeyUsage, h]

theorem checkConstraints_none_eq_ok_iff {issuer : Certificate} {below : Nat} {u : Unit} :
    checkConstraints issuer below none = .ok u ↔
      issuer.tbs.version = .v1 ∧ issuer.IsSelfIssued := by
  rw [checkConstraints]
  split <;> simp_all

theorem checkConstraints_some_eq_ok_iff {issuer : Certificate} {below : Nat}
    {constraints : X509.BasicConstraints} {u : Unit} :
    checkConstraints issuer below (some constraints) = .ok u ↔
      constraints.isCa = true ∧ ∀ limit, constraints.pathLength = some limit → below ≤ limit := by
  rw [checkConstraints]
  cases constraints.isCa with
  | false => simp
  | true =>
    cases constraints.pathLength with
    | none => simp
    | some limit => by_cases h : below ≤ limit <;> simp [h]

theorem checkIssuer_eq_ok_iff {issuer : Certificate} {below : Nat} {u : Unit} :
    checkIssuer issuer below = .ok u ↔ MayIssue issuer below := by
  simp only [checkIssuer, Checked.bind_eq_ok_iff, extension_eq_ok_iff, checkKeyUsage_eq_ok_iff]
  constructor
  · rintro ⟨usage, husage, -, hsigns, constraints, hconstraints, hcheck⟩
    refine ⟨?_, ?_⟩
    · cases usage with
      | none => exact .inl husage
      | some usage => exact .inr ⟨usage, husage, hsigns usage rfl⟩
    · cases constraints with
      | none => exact .inl ⟨hconstraints, checkConstraints_none_eq_ok_iff.1 hcheck⟩
      | some constraints =>
        exact .inr ⟨constraints, hconstraints, checkConstraints_some_eq_ok_iff.1 hcheck⟩
  · rintro ⟨husage, hconstraints⟩
    obtain ⟨usage, husage, hsigns⟩ : ∃ usage : Option X509.KeyUsage,
        issuer.extensionValue? X509.Extension.keyUsage X509.KeyUsage.ofElement? =
          usage.map some ∧ ∀ x, usage = some x → x.keyCertSign = true := by
      rcases husage with hnone | ⟨usage, hsome, hsigns⟩
      · exact ⟨none, hnone, by simp⟩
      · exact ⟨some usage, hsome, by simpa using hsigns⟩
    refine ⟨usage, husage, (), hsigns, ?_⟩
    rcases hconstraints with ⟨hnone, hroot⟩ | ⟨constraints, hsome, hca⟩
    · exact ⟨none, hnone, checkConstraints_none_eq_ok_iff.2 hroot⟩
    · exact ⟨some constraints, hsome, checkConstraints_some_eq_ok_iff.2 hca⟩

end SignedFirmware.Trust
