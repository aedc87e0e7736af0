import SignedFirmware.Proofs.Trust.Order

/-!
# Certificates that nobody asked for

The certificates of a blob are not signed, so anyone can add to them. What is added can delay a
search: a candidate of the right name with the wrong key is tried and turned down. But the search
goes on behind it, and as nothing but an issuer is ever found, certificates that pass for the issuer
of none of those that were there before stay out of every chain.

One thing may change all the same. If no issuer is found, the failure tells what was wrong about the
last candidate, and that may be one of those that were added.
-/

namespace SignedFirmware.Trust.Chain

open X509 (Certificate)

variable {s : Setting} {pool added untrusted untrusted' junk path : List Certificate}
  {leaf : Certificate}

/-- A certificate passes for the issuer of none among a leaf and a pool. -/
def Useless (leaf : Certificate) (pool : List Certificate) (c : Certificate) : Prop :=
  ∀ cert ∈ leaf :: pool, ¬Issues c cert

instance (leaf : Certificate) (pool : List Certificate) (c : Certificate) :
    Decidable (Useless leaf pool c) := by
  unfold Useless
  infer_instance

/-- Useless certificates are never found, wherever they are put. -/
theorem sameIssuers_of_inserted {pool' : List Certificate} (hsublist : pool.Sublist pool')
    (hperm : pool'.Perm (pool ++ added)) (hadded : ∀ c ∈ added, Useless leaf pool c) :
    SameIssuers leaf pool pool' := by
  intro cert hcert chain
  rw [issuer_searchIssuer, issuer_searchIssuer]
  refine (find?_eq_of_inserted hsublist hperm ?_).symm
  intro c hc
  refine decide_eq_false ?_
  rintro ⟨-, hissues⟩
  exact hadded c hc cert hcert hissues

/-- **Junk is harmless.** Put certificates among the untrusted ones, in any order and at any places.
If they pass for the issuer of nothing among the leaf, the untrusted certificates and the store, the
leaf is accepted with the same chain or not at all. -/
theorem verify_eq_ok_iff_of_junk (hsublist : untrusted.Sublist untrusted')
    (hperm : untrusted'.Perm (untrusted ++ junk))
    (hjunk : ∀ c ∈ junk, Useless leaf (s.store.certs ++ untrusted) c) :
    verify s leaf untrusted = .ok path ↔ verify s leaf untrusted' = .ok path := by
  have hpool : (s.store.certs ++ untrusted').Perm (s.store.certs ++ untrusted ++ junk) := by
    rw [List.append_assoc]
    exact hperm.append_left s.store.certs
  have hsame : SameIssuers leaf (s.store.certs ++ untrusted) (s.store.certs ++ untrusted') :=
    sameIssuers_of_inserted (hsublist.append_left s.store.certs) hpool hjunk
  have hcongr : verify s leaf untrusted = .ok path ↔
      verify { s with store := s.store } leaf untrusted' = .ok path :=
    verify_congr (fun _ ↦ Iff.rfl) hsame
  exact hcongr

/-- A certificate with everything from the authority but its key. -/
def sampleImpostor : Certificate :=
  { sampleAuthority with
    tbs :=
      { sampleAuthority.tbs with
        publicKey := Rsa.PublicKey.toInfo { Rsa.sampleKey.publicKey with exponent := 5 } } }

/-- An impostor in front of the authority and a copy of the leaf behind it leave the chain of three
as it is. -/
theorem verify_eq_ok_iff_of_junk_impostor :
    (∀ c ∈ [sampleLeaf, sampleImpostor],
        Useless sampleLeaf (sampleSetting.store.certs ++ [sampleAuthority]) c) ∧
      sampleImpostor.subject = sampleLeaf.issuer ∧
      verify sampleSetting sampleLeaf [sampleAuthority] =
        .ok [sampleLeaf, sampleAuthority, sampleRoot] ∧
      verify sampleSetting sampleLeaf [sampleImpostor, sampleAuthority, sampleLeaf] =
        .ok [sampleLeaf, sampleAuthority, sampleRoot] := by
  have hjunk : ∀ c ∈ [sampleLeaf, sampleImpostor],
      Useless sampleLeaf (sampleSetting.store.certs ++ [sampleAuthority]) c := by
    decide +kernel
  have hverify : verify sampleSetting sampleLeaf [sampleAuthority] =
      .ok [sampleLeaf, sampleAuthority, sampleRoot] := by
    decide +kernel
  have hsublist : [sampleAuthority].Sublist [sampleImpostor, sampleAuthority, sampleLeaf] :=
    ((List.nil_sublist [sampleLeaf]).cons_cons sampleAuthority).cons sampleImpostor
  have hperm : [sampleImpostor, sampleAuthority, sampleLeaf].Perm
      ([sampleAuthority] ++ [sampleLeaf, sampleImpostor]) :=
    (List.perm_append_singleton sampleImpostor [sampleAuthority, sampleLeaf]).symm
  exact ⟨hjunk, rfl, hverify,
    (verify_eq_ok_iff_of_junk hsublist hperm hjunk).1 hverify⟩

end SignedFirmware.Trust.Chain
