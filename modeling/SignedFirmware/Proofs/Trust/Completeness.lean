import SignedFirmware.Proofs.Trust.Walk

/-!
# Valid chains are found

A walk settles for the first issuer that fits and does not turn back, so in general it may miss a
chain that exists. It cannot if issuers are unambiguous, that is if no certificate has two issuers
at hand whose name and key fit. Then the certificates of a valid chain are the only ones that the
walk can go on to (`takes_of_route`): it follows the chain, and the one thing that it may do
differently is to stop early, at an anchor before the end.

`Route` is what is left of a valid chain at a certificate within it. It counts the certificates that
came before, as the bound on the depth and the positions of issuers do, and forbids that they come
again, as the search does.
-/

namespace SignedFirmware.Trust.Chain

open X509 (Certificate)

variable {s : Setting} {pool before chain path untrusted : List Certificate}
  {cert issuer leaf : Certificate}

/-! ## What is left of a chain -/

/-- A path from a certificate to an anchor that fits behind the certificates that came before. -/
structure Route (s : Setting) (pool before : List Certificate) (cert : Certificate)
    (path : List Certificate) : Prop where
  leads : Leads s pool before.length cert path
  distinct : (before ++ path).Nodup
  depth : before.length + path.length ≤ max (before.length + 1) s.policy.maxDepth

theorem valid_iff_route :
    Valid s untrusted leaf path ↔
      AllowsPurpose leaf s.policy.purpose ∧ Route s (s.store.certs ++ untrusted) [] leaf path := by
  constructor
  · intro h
    have hleads : Leads s (s.store.certs ++ untrusted) 0 leaf path := by
      refine leads_of_links h.head ?_ h.member h.anchor
      intro i hi
      rw [Nat.zero_add]
      exact h.link i hi
    refine ⟨h.purpose, hleads, h.distinct, ?_⟩
    rw [List.length_nil, Nat.zero_add, Nat.zero_add]
    exact h.depth
  · rintro ⟨hpurpose, hleads, hdistinct, hdepth⟩
    rw [List.length_nil, Nat.zero_add, Nat.zero_add] at hdepth
    exact hleads.valid hpurpose hdepth hdistinct

/-- An accepted walk goes along a route, whatever else is at hand. -/
theorem route_of_accepted (hbefore : ∀ c ∈ before, ¬c.IsSelfIssued)
    (hnew : (before ++ [cert]).Nodup) (h : (walk s pool before cert).Accepted path) :
    Route s pool before cert path := by
  obtain ⟨houtcome, rfl⟩ := h
  exact ⟨leads_of_walk hbefore houtcome, nodup_walk s pool hnew, length_walk_le s pool before cert⟩

/-! ## Issuers without rivals -/

/-- No certificate among a leaf and a pool has two issuers in the pool whose name and key fit. -/
def Unambiguous (pool : List Certificate) (leaf : Certificate) : Prop :=
  ∀ cert ∈ leaf :: pool, ∀ issuer ∈ pool, ∀ rival ∈ pool,
    Issues issuer cert → Issues rival cert → issuer = rival

instance (pool : List Certificate) (leaf : Certificate) : Decidable (Unambiguous pool leaf) := by
  unfold Unambiguous
  infer_instance

/-- Without rivals, the next certificate of a chain is the one that is found. -/
theorem issuer_searchIssuer_of_unambiguous (hunique : Unambiguous pool leaf)
    (hcert : cert ∈ leaf :: pool) (hmem : issuer ∈ pool) (hissues : Issues issuer cert)
    (hnew : issuer ∉ chain) : (searchIssuer chain pool cert).issuer = some issuer := by
  rw [issuer_searchIssuer]
  refine find?_eq_some_of_unique hmem (decide_eq_true ⟨hnew, hissues⟩) ?_
  intro rival hrival hfits
  obtain ⟨-, hrivals⟩ := of_decide_eq_true hfits
  exact hunique cert hcert rival hrival issuer hmem hrivals hissues

/-! ## Walks along routes -/

/-- Where a route goes on, there is room behind its first certificate. -/
theorem Route.room (h : Route s pool before cert (cert :: path)) (hpath : issuer ∈ path) :
    before.length + 1 < s.policy.maxDepth := by
  have hdepth := h.depth
  have := List.length_pos_of_mem hpath
  rw [List.length_cons] at hdepth
  omega

theorem Route.new (h : Route s pool before cert (cert :: path)) (hpath : issuer ∈ path) :
    issuer ∉ before ++ [cert] := by
  intro hbefore
  have hdistinct := h.distinct
  rw [List.append_cons, List.nodup_append] at hdistinct
  exact hdistinct.2.2 issuer hbefore issuer hpath rfl

theorem Route.tail (h : Route s pool before cert (cert :: path))
    (hleads : Leads s pool (before.length + 1) issuer path) :
    Route s pool (before ++ [cert]) issuer path := by
  have hlength : (before ++ [cert]).length = before.length + 1 := by
    rw [List.length_append, List.length_singleton]
  have hdepth := h.depth
  rw [List.length_cons] at hdepth
  refine ⟨?_, ?_, ?_⟩
  · rwa [hlength]
  · rw [← List.append_cons]
    exact h.distinct
  · omega

/-- A walk follows a route until it is at an anchor. -/
theorem takes_of_route (hunique : Unambiguous pool leaf) (hcert : cert ∈ leaf :: pool)
    (hbefore : ∀ c ∈ before, ¬c.IsSelfIssued) (h : Route s pool before cert path) :
    ∃ taken, taken <+: path ∧ Takes s pool before cert taken := by
  induction path generalizing before cert with
  | nil => cases h.leads
  | cons first rest ih =>
    obtain rfl : first = cert := Option.some.inj h.leads.head?
    have hmember : Member s first := h.leads.member first List.mem_cons_self
    by_cases hanchor : Anchor s first
    · exact ⟨[first], ⟨rest, rfl⟩, .stop hmember hanchor⟩
    cases h.leads with
    | stop _ hend => exact absurd hend hanchor
    | @step _ _ issuer _ _ hlink hrest =>
      have hissuer : issuer ∈ rest := List.mem_of_head? hrest.head?
      have hchain : ∀ c ∈ before ++ [first], ¬c.IsSelfIssued :=
        List.forall_mem_append.2 ⟨hbefore, List.forall_mem_singleton.2 hlink.notSelfIssued⟩
      have hfound : (searchIssuer (before ++ [first]) pool first).issuer = some issuer :=
        issuer_searchIssuer_of_unambiguous hunique hcert hlink.mem hlink.issues (h.new hissuer)
      -- a route counts intermediates by position and a walk leaves out self-issued ones
      have hmay : MayIssue issuer (intermediates (before ++ [first])) := by
        rw [intermediates_eq hchain, List.length_append, List.length_singleton,
          Nat.add_sub_cancel]
        exact hlink.mayIssue
      have honward : Onward s pool before first issuer :=
        ⟨hlink.notSelfIssued, h.room hissuer, hfound, hmay⟩
      obtain ⟨taken, hprefix, htaken⟩ :=
        ih (List.mem_cons_of_mem leaf hlink.mem) hchain (h.tail hrest)
      exact ⟨first :: taken, List.cons_prefix_cons.2 ⟨rfl, hprefix⟩,
        .step hmember hanchor honward htaken⟩

/-! ## Valid chains -/

theorem verify_eq_ok_of_valid (hunique : Unambiguous (s.store.certs ++ untrusted) leaf)
    (h : Valid s untrusted leaf path) :
    ∃ taken, taken <+: path ∧ verify s leaf untrusted = .ok taken := by
  obtain ⟨hpurpose, hroute⟩ := valid_iff_route.1 h
  obtain ⟨taken, hprefix, htaken⟩ :=
    takes_of_route hunique List.mem_cons_self (by simp) hroute
  exact ⟨taken, hprefix, verify_eq_ok_iff_takes.2 ⟨hpurpose, htaken⟩⟩

/-- **Without rivals, every leaf with a valid chain is accepted.** So a leaf is accepted if and only
if a valid chain exists, and the chain that is found is the beginning of every valid one. -/
theorem verify_isOk_iff_exists_valid (hunique : Unambiguous (s.store.certs ++ untrusted) leaf) :
    ((∃ path, verify s leaf untrusted = .ok path) ↔ ∃ path, Valid s untrusted leaf path) ∧
      ∀ taken path, verify s leaf untrusted = .ok taken → Valid s untrusted leaf path →
        taken <+: path := by
  constructor
  · constructor
    · rintro ⟨path, h⟩
      obtain ⟨hpurpose, haccepted⟩ := verify_eq_ok_iff_accepted.1 h
      have hroute := route_of_accepted (by simp) (List.nodup_singleton leaf) haccepted
      exact ⟨path, valid_iff_route.2 ⟨hpurpose, hroute⟩⟩
    · rintro ⟨path, h⟩
      obtain ⟨taken, -, htaken⟩ := verify_eq_ok_of_valid hunique h
      exact ⟨taken, htaken⟩
  · intro taken path htaken hvalid
    obtain ⟨found, hprefix, hfound⟩ := verify_eq_ok_of_valid hunique hvalid
    obtain rfl : found = taken := Except.ok.inj (hfound.symm.trans htaken)
    exact hprefix

/-- The chain of three has no rivals, and there is a valid chain from its leaf. -/
theorem verify_isOk_iff_exists_valid_three :
    Unambiguous (sampleSetting.store.certs ++ [sampleAuthority]) sampleLeaf ∧
      verify sampleSetting sampleLeaf [sampleAuthority] =
        .ok [sampleLeaf, sampleAuthority, sampleRoot] ∧
      ∃ path, Valid sampleSetting [sampleAuthority] sampleLeaf path ∧
        [sampleLeaf, sampleAuthority, sampleRoot] <+: path := by
  have hunique : Unambiguous (sampleSetting.store.certs ++ [sampleAuthority]) sampleLeaf := by
    decide +kernel
  have hverify : verify sampleSetting sampleLeaf [sampleAuthority] =
      .ok [sampleLeaf, sampleAuthority, sampleRoot] := by
    decide +kernel
  obtain ⟨hiff, hprefix⟩ := verify_isOk_iff_exists_valid hunique
  obtain ⟨path, hvalid⟩ := hiff.1 ⟨_, hverify⟩
  exact ⟨hunique, hverify, path, hvalid, hprefix _ path hverify hvalid⟩

end SignedFirmware.Trust.Chain
