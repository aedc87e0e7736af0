import SignedFirmware.Proofs.Trust.Climb
import SignedFirmware.Proofs.Trust.Content

/-!
# Relaxing a policy

A policy that asks for less accepts all that it accepted before. This does not go without saying, as
a walk under another policy need not come to the same certificates: where chains may be partial, it
stops at the first certificate of the store. But as long as neither walk has stopped, both are at
the same certificate with the same certificates before it, for what is found next depends on nothing
else. So the walk under the relaxed policy follows the other one step by step, and all that it may
do on its own is to stop early (`takes_of_relaxes`). A chain that is accepted after a relaxation
is therefore a beginning of the one from before.
-/

namespace SignedFirmware.Trust

open X509 (Certificate)
open Cms (SignedData)

/-- A policy is no stricter than another: what the other leaves unchecked it leaves unchecked too,
it asks for the same purpose or for none, and it has room for chains as long. -/
structure Policy.Relaxes (relaxed policy : Policy) : Prop where
  partialChain : policy.partialChain = true → relaxed.partialChain = true
  ignoreTime : policy.ignoreTime = true → relaxed.ignoreTime = true
  purpose : relaxed.purpose = policy.purpose ∨ relaxed.purpose = .any
  maxDepth : policy.maxDepth ≤ relaxed.maxDepth

variable {relaxed : Policy}

theorem AllowsPurpose.of_relaxes {policy : Policy} {cert : Certificate}
    (hrelaxed : relaxed.Relaxes policy) (h : AllowsPurpose cert policy.purpose) :
    AllowsPurpose cert relaxed.purpose := by
  rcases hrelaxed.purpose with hsame | hany
  · rwa [hsame]
  · intro required hrequired
    rw [hany] at hrequired
    cases hrequired

namespace Chain

variable {s : Setting} {pool before path untrusted : List Certificate}
  {cert issuer leaf : Certificate}

/-! ## Steps -/

theorem Member.of_relaxes (hrelaxed : relaxed.Relaxes s.policy) (h : Member s cert) :
    Member { s with policy := relaxed } cert where
  extensions := h.extensions
  period hchecked := by
    apply h.period
    rw [Bool.eq_false_iff]
    intro hignored
    exact Bool.eq_false_iff.1 hchecked (hrelaxed.ignoreTime hignored)

theorem Anchor.of_relaxes (hrelaxed : relaxed.Relaxes s.policy) (h : Anchor s cert) :
    Anchor { s with policy := relaxed } cert :=
  ⟨h.1, h.2.imp_left hrelaxed.partialChain⟩

theorem Onward.of_relaxes (hrelaxed : relaxed.Relaxes s.policy)
    (h : Onward s pool before cert issuer) :
    Onward { s with policy := relaxed } pool before cert issuer where
  notSelfIssued := h.notSelfIssued
  room := lt_of_lt_of_le h.room hrelaxed.maxDepth
  found := h.found
  mayIssue := h.mayIssue

/-! ## Walks -/

/-- A walk under a relaxed policy takes the steps of one that is accepted, or only the first of
them. -/
theorem takes_of_relaxes (hrelaxed : relaxed.Relaxes s.policy)
    (h : Takes s pool before cert path) :
    ∃ taken, taken <+: path ∧ Takes { s with policy := relaxed } pool before cert taken := by
  induction h with
  | @stop before cert hmember hanchor =>
    exact ⟨[cert], List.prefix_rfl, .stop (hmember.of_relaxes hrelaxed)
      (hanchor.of_relaxes hrelaxed)⟩
  | @step before rest cert issuer hmember _ honward _ ih =>
    by_cases hanchor : Anchor { s with policy := relaxed } cert
    · -- the relaxed walk stops here, though the other one does not
      exact ⟨[cert], List.prefix_append [cert] rest, .stop (hmember.of_relaxes hrelaxed) hanchor⟩
    · obtain ⟨taken, hprefix, htaken⟩ := ih
      exact ⟨cert :: taken, List.cons_prefix_cons.2 ⟨rfl, hprefix⟩,
        .step (hmember.of_relaxes hrelaxed) hanchor (honward.of_relaxes hrelaxed) htaken⟩

/-- A leaf that is accepted stays so under a relaxed policy, with a chain that is no longer. -/
theorem exists_prefix_of_relaxes (hrelaxed : relaxed.Relaxes s.policy)
    (h : verify s leaf untrusted = .ok path) :
    ∃ taken, taken <+: path ∧ verify { s with policy := relaxed } leaf untrusted = .ok taken := by
  obtain ⟨hpurpose, hwalk⟩ := verify_eq_ok_iff_takes.1 h
  obtain ⟨taken, hprefix, htaken⟩ := takes_of_relaxes hrelaxed hwalk
  exact ⟨taken, hprefix, verify_eq_ok_iff_takes.2 ⟨hpurpose.of_relaxes hrelaxed, htaken⟩⟩

end Chain

/-! ## Signed data -/

/-- **Relaxing a policy rejects nothing.** Signed data that is accepted over some content is
accepted under every policy that is no stricter. -/
theorem verify_of_relaxes {s : Chain.Setting} {d : SignedData} {content : Bytes}
    (hrelaxed : relaxed.Relaxes s.policy) (h : verify s d content = .ok ()) :
    verify { s with policy := relaxed } d content = .ok () := by
  obtain ⟨hsigners, haccepted⟩ := verify_eq_ok_iff.1 h
  refine verify_eq_ok_iff.2 ⟨hsigners, ?_⟩
  intro signer hsigner
  obtain ⟨cert, hcert, ⟨path, hpath⟩, hsigns⟩ := haccepted signer hsigner
  obtain ⟨taken, -, htaken⟩ := Chain.exists_prefix_of_relaxes hrelaxed hpath
  exact ⟨cert, hcert, ⟨taken, htaken⟩, hsigns⟩

/-- The chain of three with a signer of the content "fw". -/
def sampleFirmware : SignedData := { Chain.sampleSigned with signers := [sampleSigner] }

/-- The strict sample policy, with trust in the authority as well as in the root. -/
def crossSetting : Chain.Setting :=
  { Chain.sampleSetting with store := ⟨[Chain.sampleRoot, Chain.sampleAuthority]⟩ }

/-- The default policy relaxes the strict one, under which no chain may end at the authority. -/
theorem verify_of_relaxes_default :
    Policy.Relaxes {} crossSetting.policy ∧
      verify crossSetting sampleFirmware [0x66, 0x77] = .ok () ∧
        verify { crossSetting with policy := {} } sampleFirmware [0x66, 0x77] = .ok () := by
  have hrelaxed : Policy.Relaxes {} crossSetting.policy :=
    ⟨fun _ ↦ rfl, fun _ ↦ rfl, .inr rfl, by decide⟩
  have hverify : verify crossSetting sampleFirmware [0x66, 0x77] = .ok () := by decide +kernel
  exact ⟨hrelaxed, hverify, verify_of_relaxes hrelaxed hverify⟩

end SignedFirmware.Trust
