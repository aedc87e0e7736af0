import SignedFirmware.Digest

/-!
# Which identifiers are accepted

The identifier of a signature scheme names one of five digests or plain RSA. Where the digest has to
come from the scheme, plain RSA will not do; where the digest is given elsewhere, any of the six
will.
-/

namespace SignedFirmware

namespace Digest.Algorithm

/-- Every digest is known under its own identifier. -/
@[simp] theorem ofOid?_oid (a : Algorithm) : ofOid? a.oid = some a := by
  cases a <;> decide

theorem oid_injective : Function.Injective oid := by
  intro a b h
  have := congrArg ofOid? h
  rwa [ofOid?_oid, ofOid?_oid, Option.some.injEq] at this

theorem ofContent?_oid (a : Algorithm) : Oid.ofContent? a.oid.content = some a.oid := by
  cases a <;> decide

theorem ofContent?_rsaOid (a : Algorithm) : Oid.ofContent? a.rsaOid.content = some a.rsaOid := by
  cases a <;> decide

end Digest.Algorithm

namespace SignatureScheme

open Digest (Algorithm)

theorem ofOid?_rsaOid (a : Algorithm) : ofOid? a.rsaOid = some (.rsaWith a) := by
  cases a <;> decide

theorem ofOid?_eq_some_rsaWith_iff {o : Oid} {a : Algorithm} :
    ofOid? o = some (.rsaWith a) ↔ o = a.rsaOid := by
  constructor
  · intro h
    rw [ofOid?] at h
    split at h
    · simp at h
    · obtain ⟨b, hfind, hb⟩ := Option.map_eq_some_iff.1 h
      obtain rfl : b = a := by simpa using hb
      have := List.find?_some hfind
      exact (of_decide_eq_true this).symm
  · rintro rfl
    exact ofOid?_rsaOid a

/-- The digest that a scheme implies is the one that its identifier names. -/
theorem digest?_ofOid?_eq_some_iff {o : Oid} {a : Algorithm} :
    (ofOid? o).bind digest? = some a ↔ o = a.rsaOid := by
  rw [← ofOid?_eq_some_rsaWith_iff, Option.bind_eq_some_iff]
  constructor
  · rintro ⟨scheme, hscheme, hdigest⟩
    cases scheme with
    | rsa => simp [digest?] at hdigest
    | rsaWith b =>
      obtain rfl : b = a := by simpa [digest?] using hdigest
      exact hscheme
  · exact fun h ↦ ⟨.rsaWith a, h, rfl⟩

/-- The identifiers of schemes are those of plain RSA and of RSA with one of the digests. -/
theorem isSome_ofOid?_iff {o : Oid} :
    (ofOid? o).isSome = true ↔ o = rsaEncryption ∨ ∃ a : Algorithm, o = a.rsaOid := by
  by_cases hplain : o = rsaEncryption
  · simp [ofOid?, hplain]
  · rw [Option.isSome_iff_exists]
    constructor
    · rintro ⟨scheme, hscheme⟩
      cases scheme with
      | rsa => simp [ofOid?, hplain] at hscheme
      | rsaWith a => exact .inr ⟨a, ofOid?_eq_some_rsaWith_iff.1 hscheme⟩
    · rintro (rfl | ⟨a, rfl⟩)
      · exact absurd rfl hplain
      · exact ⟨_, ofOid?_rsaOid a⟩

end SignatureScheme

end SignedFirmware
