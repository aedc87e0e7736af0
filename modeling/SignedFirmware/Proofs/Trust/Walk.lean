import SignedFirmware.Proofs.List
import SignedFirmware.Proofs.Trust.Chain

/-!
# One step of a walk

A walk depends on the certificates at hand only through its searches, and a search finds the first
certificate that passes for an issuer and is new to the chain (`issuer_searchIssuer`). What a step
takes is all in `accepted_walk_iff`: an accepted walk is at an anchor, or it goes on to the issuer
that was found and is accepted from there. `Takes` puts such steps together. Results about whole
walks follow by induction on these steps or on the path, and none of them has to look into the walk
again.
-/

namespace SignedFirmware.Trust.Chain

open X509 (Certificate)

variable {s : Setting} {pool before chain path : List Certificate} {cert issuer leaf : Certificate}

/-! ## Issuers -/

instance (cert issuer : Certificate) : Decidable (SignedBy cert issuer) :=
  decidable_of_iff ((checkSignature cert issuer).isOk = true) <| by
    simp only [Checked.isOk_iff, checkSignature_eq_ok_iff, exists_const]

/-- A certificate passes for the issuer of another: its name and its key fit. -/
structure Issues (issuer cert : Certificate) : Prop where
  named : issuer.subject = cert.issuer
  signed : SignedBy cert issuer

instance (issuer cert : Certificate) : Decidable (Issues issuer cert) :=
  decidable_of_iff (issuer.subject = cert.issuer ∧ SignedBy cert issuer)
    ⟨fun h ↦ ⟨h.1, h.2⟩, fun h ↦ ⟨h.named, h.signed⟩⟩

theorem issuer_search (cert : Certificate) (candidates : List Certificate) :
    (search cert candidates).issuer = candidates.find? fun c ↦ decide (SignedBy cert c) := by
  induction candidates with
  | nil => rfl
  | cons candidate rest ih =>
    rw [search]
    split
    · rename_i hsignature
      have hsigned : SignedBy cert candidate := checkSignature_eq_ok_iff.1 hsignature
      simp [hsigned]
    · rename_i hsignature
      have hsigned : ¬SignedBy cert candidate := by
        intro h
        rw [(checkSignature_eq_ok_iff (u := ())).2 h] at hsignature
        cases hsignature
      simp [hsigned, ih]

/-- A search finds the first certificate of the pool that passes for the issuer and is new to the
chain. -/
theorem issuer_searchIssuer (chain pool : List Certificate) (cert : Certificate) :
    (searchIssuer chain pool cert).issuer =
      pool.find? fun c ↦ decide (c ∉ chain ∧ Issues c cert) := by
  rw [searchIssuer, issuer_search, unused, List.find?_filter, List.find?_filter]
  congr 1
  funext c
  by_cases hc : c ∈ chain
  · simp [hc]
  · have hiff : Issues c cert ↔ c.subject = cert.issuer ∧ SignedBy cert c :=
      ⟨fun h ↦ ⟨h.named, h.signed⟩, fun h ↦ ⟨h.1, h.2⟩⟩
    simp [hc, hiff]

theorem Link.issues {position : Nat} (h : Link pool position cert issuer) : Issues issuer cert where
  named := h.named
  signed := h.signed

/-! ## Steps -/

/-- A walk is accepted, and went along the given path. -/
structure Walk.Accepted (w : Walk) (path : List Certificate) : Prop where
  outcome : w.outcome = .ok ()
  along : w.path = path

/-- A walk may go on from a certificate to an issuer that it found. -/
structure Onward (s : Setting) (pool before : List Certificate) (cert issuer : Certificate) :
    Prop where
  notSelfIssued : ¬cert.IsSelfIssued
  room : before.length + 1 < s.policy.maxDepth
  found : (searchIssuer (before ++ [cert]) pool cert).issuer = some issuer
  mayIssue : MayIssue issuer (intermediates (before ++ [cert]))

theorem Walk.accepted_stop_iff {searches : List Search} {outcome : Except Blob.Error Unit} :
    (stop cert searches outcome).Accepted path ↔ outcome = .ok () ∧ path = [cert] := by
  constructor
  · rintro ⟨houtcome, hpath⟩
    exact ⟨houtcome, hpath.symm⟩
  · rintro ⟨houtcome, rfl⟩
    exact ⟨houtcome, rfl⟩

theorem Walk.accepted_step_iff {found : Search} {w : Walk} :
    (step cert found w).Accepted path ↔ ∃ rest, path = cert :: rest ∧ w.Accepted rest := by
  constructor
  · rintro ⟨houtcome, rfl⟩
    exact ⟨w.path, rfl, houtcome, rfl⟩
  · rintro ⟨_, rfl, houtcome, rfl⟩
    exact ⟨houtcome, rfl⟩

theorem walk_of_anchor (hmember : Member s cert) (hanchor : Anchor s cert) :
    walk s pool before cert = .stop cert [] (.ok ()) := by
  rw [walk, (checkMember_eq_ok_iff (u := ())).2 hmember]
  exact if_pos (isAnchor_iff.2 hanchor)

theorem walk_of_onward (hmember : Member s cert) (hanchor : ¬Anchor s cert)
    (h : Onward s pool before cert issuer) :
    walk s pool before cert =
      .step cert (searchIssuer (before ++ [cert]) pool cert)
        (walk s pool (before ++ [cert]) issuer) := by
  have hroom : (before ++ [cert]).length < s.policy.maxDepth := by
    rw [List.length_append]
    exact h.room
  rw [walk, (checkMember_eq_ok_iff (u := ())).2 hmember]
  dsimp only
  rw [if_neg fun hcontra ↦ hanchor (isAnchor_iff.1 hcontra)]
  rw [(checkDeparture_eq_ok_iff (u := ())).2 ⟨h.notSelfIssued, hroom⟩]
  dsimp only
  split
  · rename_i hnone
    rw [h.found] at hnone
    cases hnone
  · rename_i found hfound
    obtain rfl : issuer = found := Option.some.inj (h.found.symm.trans hfound)
    rw [(checkIssuer_eq_ok_iff (u := ())).2 h.mayIssue]

/-- **How an accepted walk begins.** The certificate passes the checks that hold anywhere, and the
walk ends there as at an anchor or goes on. -/
theorem accepted_walk_iff :
    (walk s pool before cert).Accepted path ↔
      Member s cert ∧
        ((Anchor s cert ∧ path = [cert]) ∨
          (¬Anchor s cert ∧ ∃ issuer rest, path = cert :: rest ∧
            Onward s pool before cert issuer ∧
              (walk s pool (before ++ [cert]) issuer).Accepted rest)) := by
  constructor
  · -- two of the ways out of a walk can end well: at an anchor, and behind an issuer
    fun_cases walk s pool before cert with
    | case1 => exact fun h ↦ nomatch h.outcome
    | case2 hmember hanchor =>
      intro h
      obtain ⟨-, hpath⟩ := Walk.accepted_stop_iff.1 h
      exact ⟨checkMember_eq_ok_iff.1 hmember, .inl ⟨isAnchor_iff.1 hanchor, hpath⟩⟩
    | case3 => exact fun h ↦ nomatch h.outcome
    | case4 => exact fun h ↦ nomatch h.outcome
    | case5 => exact fun h ↦ nomatch h.outcome
    | case6 hmember hanchor chain hdeparture found issuer hfound hissuer =>
      intro h
      obtain ⟨rest, hpath, hrest⟩ := Walk.accepted_step_iff.1 h
      obtain ⟨hself, hroom⟩ := checkDeparture_eq_ok_iff.1 hdeparture
      have hlength : chain.length = before.length + 1 := by simp [chain]
      rw [hlength] at hroom
      exact ⟨checkMember_eq_ok_iff.1 hmember, .inr ⟨fun hcontra ↦ hanchor (isAnchor_iff.2 hcontra),
        issuer, rest, hpath, ⟨hself, hroom, hfound, checkIssuer_eq_ok_iff.1 hissuer⟩, hrest⟩⟩
  · rintro ⟨hmember, ⟨hanchor, hpath⟩ | ⟨hanchor, issuer, rest, hpath, honward, hrest⟩⟩
    · rw [walk_of_anchor hmember hanchor]
      exact Walk.accepted_stop_iff.2 ⟨rfl, hpath⟩
    · rw [walk_of_onward hmember hanchor honward]
      exact Walk.accepted_step_iff.2 ⟨rest, hpath, hrest⟩

/-! ## Accepted walks -/

/-- How an accepted walk goes on from a certificate, with the ones that it came by before: it stops
at an anchor, or it goes on to the issuer that it found. -/
inductive Takes (s : Setting) (pool : List Certificate) :
    List Certificate → Certificate → List Certificate → Prop
  | stop {before : List Certificate} {cert : Certificate} (hmember : Member s cert)
    (hanchor : Anchor s cert) : Takes s pool before cert [cert]
  | step {before rest : List Certificate} {cert issuer : Certificate} (hmember : Member s cert)
    (hanchor : ¬Anchor s cert) (honward : Onward s pool before cert issuer)
    (hrest : Takes s pool (before ++ [cert]) issuer rest) : Takes s pool before cert (cert :: rest)

theorem accepted_iff_takes :
    (walk s pool before cert).Accepted path ↔ Takes s pool before cert path := by
  constructor
  · intro h
    induction path generalizing before cert with
    | nil =>
      obtain ⟨-, ⟨-, hpath⟩ | ⟨-, _, _, hpath, -⟩⟩ := accepted_walk_iff.1 h <;> cases hpath
    | cons first rest ih =>
      obtain ⟨hmember, ⟨hanchor, hpath⟩ | ⟨hanchor, issuer, more, hpath, honward, hmore⟩⟩ :=
        accepted_walk_iff.1 h
      · rw [hpath]
        exact .stop hmember hanchor
      · obtain ⟨rfl, rfl⟩ := List.cons.inj hpath
        exact .step hmember hanchor honward (ih hmore)
  · intro h
    induction h with
    | stop hmember hanchor => exact accepted_walk_iff.2 ⟨hmember, .inl ⟨hanchor, rfl⟩⟩
    | step hmember hanchor honward _ ih =>
      exact accepted_walk_iff.2 ⟨hmember, .inr ⟨hanchor, _, _, rfl, honward, ih⟩⟩

theorem verify_eq_ok_iff_accepted {untrusted : List Certificate} :
    verify s leaf untrusted = .ok path ↔
      AllowsPurpose leaf s.policy.purpose ∧ (walkFrom s leaf untrusted).Accepted path := by
  rw [verify_eq_ok_iff]
  exact and_congr_right fun _ ↦ ⟨fun h ↦ ⟨h.1, h.2⟩, fun h ↦ ⟨h.outcome, h.along⟩⟩

theorem verify_eq_ok_iff_takes {untrusted : List Certificate} :
    verify s leaf untrusted = .ok path ↔
      AllowsPurpose leaf s.policy.purpose ∧
        Takes s (s.store.certs ++ untrusted) [] leaf path := by
  rw [verify_eq_ok_iff_accepted, walkFrom, accepted_iff_takes]

end SignedFirmware.Trust.Chain
