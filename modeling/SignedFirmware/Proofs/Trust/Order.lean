import SignedFirmware.Proofs.Trust.Completeness

/-!
# The order of certificates

Whoever puts certificates into a blob has no say in their order, as it is that of their encodings. A
walk settles for the first issuer that fits, so it may well end differently if two issuers of one
certificate change places. Two authorities of one name and key are such rivals (`sampleRival`). This
is all that order can do: a leaf is accepted with the same chain if the rivals among the issuers of
each certificate keep their order (`RivalsInOrder`), whatever happens to the rest.

Walks over two pools are compared step by step (`accepted_walk_congr`). The pools have to agree in
nothing but what is found from the certificates at hand.
-/

namespace SignedFirmware.Trust.Chain

open X509 (Certificate)

variable {s : Setting} {store : Store} {pool pool' untrusted untrusted' : List Certificate}
  {before path : List Certificate} {cert issuer leaf : Certificate}

/-! ## Walks over two pools -/

/-- From a leaf and the certificates of a pool, searches in another pool find the same issuers. -/
def SameIssuers (leaf : Certificate) (pool pool' : List Certificate) : Prop :=
  ∀ cert ∈ leaf :: pool, ∀ chain,
    (searchIssuer chain pool cert).issuer = (searchIssuer chain pool' cert).issuer

theorem member_congr : Member { s with store } cert ↔ Member s cert :=
  ⟨fun h ↦ ⟨h.extensions, h.period⟩, fun h ↦ ⟨h.extensions, h.period⟩⟩

theorem anchor_congr (hstore : ∀ c, c ∈ s.store.certs ↔ c ∈ store.certs) :
    Anchor { s with store } cert ↔ Anchor s cert := by
  rw [Anchor, Anchor, hstore]

theorem onward_congr
    (hfound : (searchIssuer (before ++ [cert]) pool cert).issuer =
      (searchIssuer (before ++ [cert]) pool' cert).issuer) :
    Onward { s with store } pool' before cert issuer ↔ Onward s pool before cert issuer :=
  ⟨fun h ↦ ⟨h.notSelfIssued, h.room, hfound.trans h.found, h.mayIssue⟩,
    fun h ↦ ⟨h.notSelfIssued, h.room, hfound.symm.trans h.found, h.mayIssue⟩⟩

/-- A walk is accepted over both of two pools, along the same path, if the same issuers are found
and the same certificates trusted. -/
theorem accepted_walk_congr (hstore : ∀ c, c ∈ s.store.certs ↔ c ∈ store.certs)
    (hsame : SameIssuers leaf pool pool') (hcert : cert ∈ leaf :: pool) :
    (walk { s with store } pool' before cert).Accepted path ↔
      (walk s pool before cert).Accepted path := by
  induction path generalizing before cert with
  | nil =>
    rw [accepted_walk_iff, accepted_walk_iff]
    simp
  | cons first rest ih =>
    rw [accepted_walk_iff, accepted_walk_iff, member_congr, anchor_congr hstore]
    refine and_congr_right fun _ ↦ or_congr_right (and_congr_right fun _ ↦ ?_)
    refine exists_congr fun issuer ↦ exists_congr fun more ↦ and_congr_right fun hmore ↦ ?_
    obtain rfl : rest = more := (List.cons.inj hmore).2
    rw [onward_congr (hsame cert hcert (before ++ [cert]))]
    refine and_congr_right fun honward ↦ ih ?_
    exact List.mem_cons_of_mem leaf (found_issuer honward.found).1

/-! ## Rivals -/

/-- Of two issuers in a pool that one certificate has, the one that comes first also does so in
another pool. If one occurs more than once, its first place counts. -/
def RivalsInOrder (leaf : Certificate) (pool pool' : List Certificate) : Prop :=
  ∀ cert ∈ leaf :: pool, ∀ issuer ∈ pool, ∀ rival ∈ pool,
    Issues issuer cert → Issues rival cert →
      pool.idxOf issuer < pool.idxOf rival → pool'.idxOf issuer < pool'.idxOf rival

instance (leaf : Certificate) (pool pool' : List Certificate) :
    Decidable (RivalsInOrder leaf pool pool') := by
  unfold RivalsInOrder
  infer_instance

/-- Without rivals, any order will do. -/
theorem rivalsInOrder_of_unambiguous (h : Unambiguous pool leaf) (pool' : List Certificate) :
    RivalsInOrder leaf pool pool' := by
  intro cert hcert issuer hissuer rival hrival hissues hrivals hlt
  obtain rfl : issuer = rival := h cert hcert issuer hissuer rival hrival hissues hrivals
  exact absurd hlt (Nat.lt_irrefl _)

theorem sameIssuers_of_order (hmem : ∀ c, c ∈ pool ↔ c ∈ pool')
    (horder : RivalsInOrder leaf pool pool') : SameIssuers leaf pool pool' := by
  intro cert hcert chain
  rw [issuer_searchIssuer, issuer_searchIssuer]
  refine find?_eq_of_order hmem ?_
  intro issuer hissuer rival hrival hfits hrivalFits
  obtain ⟨-, hissues⟩ := of_decide_eq_true hfits
  obtain ⟨-, hrivals⟩ := of_decide_eq_true hrivalFits
  exact horder cert hcert issuer hissuer rival hrival hissues hrivals

/-! ## Permutations -/

theorem verify_congr (hstore : ∀ c, c ∈ s.store.certs ↔ c ∈ store.certs)
    (hsame : SameIssuers leaf (s.store.certs ++ untrusted) (store.certs ++ untrusted')) :
    verify s leaf untrusted = .ok path ↔ verify { s with store } leaf untrusted' = .ok path := by
  rw [verify_eq_ok_iff_accepted, verify_eq_ok_iff_accepted]
  refine and_congr_right fun _ ↦ ?_
  exact (accepted_walk_congr hstore hsame List.mem_cons_self).symm

/-- **What order cannot do.** If neither the store nor the untrusted certificates change but for
their order, and rivals keep theirs, a leaf is accepted with the same chain or not at all. -/
theorem verify_eq_ok_iff_of_perm (hstore : s.store.certs.Perm store.certs)
    (huntrusted : untrusted.Perm untrusted')
    (horder : RivalsInOrder leaf (s.store.certs ++ untrusted) (store.certs ++ untrusted')) :
    verify s leaf untrusted = .ok path ↔ verify { s with store } leaf untrusted' = .ok path :=
  verify_congr (fun _ ↦ hstore.mem_iff)
    (sameIssuers_of_order (fun _ ↦ (hstore.append huntrusted).mem_iff) horder)

/-- An authority with the name and key of `sampleAuthority`, below an issuer "X" that is nowhere to
be found, signed with the sample key. -/
def sampleRival : Certificate := sampleCertificate .authority [4] [0x58] [0x41]
  0x39f705f0eb9cb3132cd178cdcc97a525dcadf7fd1edd8ee77f46b5e67c124e29
  0x5ac0d5689c6908d0f53e8d1216eb077fd2609f82d9b99a71806c5053049ef51e

/-- A certificate that is nobody's issuer may change places with both rivals. -/
theorem verify_eq_ok_iff_of_perm_rivals :
    RivalsInOrder sampleLeaf
        (sampleSetting.store.certs ++ [sampleAuthority, sampleRival, sampleLeaf])
        (sampleSetting.store.certs ++ [sampleLeaf, sampleAuthority, sampleRival]) ∧
      verify sampleSetting sampleLeaf [sampleLeaf, sampleAuthority, sampleRival] =
        .ok [sampleLeaf, sampleAuthority, sampleRoot] := by
  have horder : RivalsInOrder sampleLeaf
      (sampleSetting.store.certs ++ [sampleAuthority, sampleRival, sampleLeaf])
      (sampleSetting.store.certs ++ [sampleLeaf, sampleAuthority, sampleRival]) := by
    decide +kernel
  have hverify : verify sampleSetting sampleLeaf [sampleAuthority, sampleRival, sampleLeaf] =
      .ok [sampleLeaf, sampleAuthority, sampleRoot] := by
    decide +kernel
  have hperm : [sampleAuthority, sampleRival, sampleLeaf].Perm
      [sampleLeaf, sampleAuthority, sampleRival] :=
    List.perm_append_singleton sampleLeaf [sampleAuthority, sampleRival]
  exact ⟨horder, (verify_eq_ok_iff_of_perm .rfl hperm horder).1 hverify⟩

/-- Rivals that change places make a difference: the chain that goes on from the first of them is
the only one that is tried. -/
theorem verify_ne_of_rivals_swapped :
    [sampleAuthority, sampleRival].Perm [sampleRival, sampleAuthority] ∧
      verify sampleSetting sampleLeaf [sampleAuthority, sampleRival] =
        .ok [sampleLeaf, sampleAuthority, sampleRoot] ∧
      verify sampleSetting sampleLeaf [sampleRival, sampleAuthority] =
        .error (.issuerNotFound (sampleName [0x41])) := by
  refine ⟨.swap sampleRival sampleAuthority [], ?_⟩
  decide +kernel

/-- Without rivals, the order of the certificates does not matter at all. -/
theorem verify_eq_ok_iff_of_unambiguous (hstore : s.store.certs.Perm store.certs)
    (huntrusted : untrusted.Perm untrusted') (h : Unambiguous (s.store.certs ++ untrusted) leaf) :
    verify s leaf untrusted = .ok path ↔ verify { s with store } leaf untrusted' = .ok path :=
  verify_congr (fun _ ↦ hstore.mem_iff)
    (sameIssuers_of_order (fun _ ↦ (hstore.append huntrusted).mem_iff)
      (rivalsInOrder_of_unambiguous h _))

end SignedFirmware.Trust.Chain
