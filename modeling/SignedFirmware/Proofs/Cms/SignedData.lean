import SignedFirmware.Cms.SignedData
import SignedFirmware.Proofs.Cms.SignerInfo

/-!
# Signed data reads back

Signed data is read back from its own element if its parts are, and if this element has a spelling
at all. The parts that are carried along, other forms of certificates and revocation lists, are left
to whoever put them there.
-/

namespace SignedFirmware.Cms

open Der (Element Mirrors ReadsAs Transits)
open X509 (AlgorithmId Certificate)

/-! ## Content -/

namespace EncapsulatedContent

variable {c : EncapsulatedContent}

@[simp] theorem toElement_tag : c.toElement.tag = Der.Tag.sequence := rfl

theorem readsAs_toElement (htype : Oid.ofContent? c.type.content = some c.type)
    (hknown : ∀ x, c.content = some x → Der.Tag.isKnown x.tag = true) :
    ReadsAs ofElement? c.toElement c := by
  obtain ⟨type, content⟩ := c
  refine Der.readsAs_sequence ?_ fun hfits ↦ ?_
  · cases content <;> simp
  · have htype : Der.oid? (Der.ofOid type) = some type := Der.oid?_eq_some_iff.2 ⟨rfl, htype⟩
    refine Der.Fields.bind_eq_some (Der.Fields.field_eq_some htype _) ?_
    cases content with
    | none =>
      refine Der.Fields.bind_eq_some ?_ rfl
      exact Der.Fields.explicit_eq_some_iff.2 (.inl ⟨Der.Fields.context_nil 0, rfl⟩)
    | some x =>
      have houter : (Element.ofElements (Der.Tag.context 0) [x]).Fits := hfits _ (by simp)
      have hx : x.Fits := houter.of_mem (by simpa using hknown x rfl) x (by simp)
      exact Der.Fields.bind_eq_some (Der.Fields.explicit_zero_eq_some_iff.2 ⟨rfl, hx⟩) rfl

theorem fits_of_ofElement? {e x : Element} (h : ofElement? e = some c) (hx : c.content = some x) :
    x.Fits := by
  obtain ⟨es, -, -, hfields⟩ := Der.sequence_eq_some_iff.1 h
  obtain ⟨_, _, _, -, -, hrest⟩ := Der.Fields.exists_of_field_bind hfields
  obtain ⟨_, _, hexplicit, hend⟩ := Der.Fields.bind_eq_some_iff.1 hrest
  cases hend
  obtain ⟨-, hnone⟩ | ⟨_, inner, _, -, -, hinner, hsame, hsome⟩ :=
    Der.Fields.explicit_eq_some_iff.1 hexplicit
  · rw [hnone] at hx
    cases hx
  · obtain rfl : inner = x := by
      rw [Option.some.inj hsame]
      exact Option.some.inj (hsome.symm.trans hx)
    exact (Der.elements?_eq_some_iff.1 hinner).1 inner List.mem_cons_self

end EncapsulatedContent

/-! ## Certificates -/

namespace CertificateChoice

theorem readsAs_certificate {c : Certificate} (h : ReadsAs Certificate.ofElement? c.toElement c) :
    ReadsAs ofElement? (toElement (.certificate c)) (.certificate c) := by
  intro hfits
  have htag : Der.Tag.sequence ≠ Der.Tag.context 3 := by decide
  have hread : Certificate.ofElement? c.toElement = some c := h hfits
  rw [ofElement?, toElement, Certificate.toElement, Der.ofElements_tag, if_neg htag,
    ← Certificate.toElement, hread, Option.map_some]

theorem mirrors_compare (a b : CertificateChoice) : Mirrors (compare a b) (compare b a) :=
  Mirrors.compareChoice _ _

theorem transits_compare (a b c : CertificateChoice) :
    Transits (compare a b) (compare b c) (compare a c) :=
  Transits.compareChoice _ _ _

end CertificateChoice

/-! ## Signed data -/

namespace SignedData

variable {d : SignedData}

def certificatesElement (cs : List CertificateChoice) : Element :=
  .ofElements Der.Tag.set (cs.map CertificateChoice.toElement)

def revocationsElement (rs : List RevocationChoice) : Element :=
  .ofElements Der.Tag.set (rs.map RevocationChoice.toElement)

def signersElement (signers : List SignerInfo) : Element :=
  .ofElements Der.Tag.set (signers.map SignerInfo.toElement)

/-- The elements behind the content: sets of certificates and of revocation lists, if there are any,
and then the signers. -/
theorem toElement_eq :
    d.toElement = .ofElements Der.Tag.sequence
      (Der.ofNat d.version ::
        .ofElements Der.Tag.set (d.digestAlgorithms.map AlgorithmId.toElement) ::
        d.content.toElement ::
        ((d.certificates.map fun cs ↦ Der.numbered 0 (certificatesElement cs)).toList ++
          ((d.revocations.map fun rs ↦ Der.numbered 1 (revocationsElement rs)).toList ++
            [signersElement d.signers]))) := by
  simp only [toElement, List.append_assoc, List.cons_append, List.nil_append]
  rfl

/-- What stands behind the certificates is not taken for them. -/
theorem context_zero_revocations (rs : Option (List RevocationChoice)) (signers : List SignerInfo) :
    Der.Fields.context 0
        ((rs.map fun rs ↦ Der.numbered 1 (revocationsElement rs)).toList ++
          [signersElement signers]) =
      some (none, (rs.map fun rs ↦ Der.numbered 1 (revocationsElement rs)).toList ++
        [signersElement signers]) := by
  refine Der.Fields.context_written_of_lt (fun rs ↦ ?_) rs
    (Der.Fields.context_cons_of_plain Der.Tag.isContext_set 0 [])
  rw [Der.numbered_tag]
  decide

theorem readsAs_toElement
    (hversion : Der.natBelow? versionLimit (Der.ofNat d.version) = some d.version)
    (hdigests : ReadsAs (setOf? AlgorithmId.ofElement? AlgorithmId.compare)
      (.ofElements Der.Tag.set (d.digestAlgorithms.map AlgorithmId.toElement)) d.digestAlgorithms)
    (hcontent : ReadsAs EncapsulatedContent.ofElement? d.content.toElement d.content)
    (hcertificates : ∀ cs, d.certificates = some cs →
      ReadsAs (setOf? CertificateChoice.ofElement? CertificateChoice.compare)
        (certificatesElement cs) cs)
    (hrevocations : ∀ rs, d.revocations = some rs →
      ReadsAs (setOf? RevocationChoice.ofElement? RevocationChoice.compare)
        (revocationsElement rs) rs)
    (hsigners : ReadsAs (setOf? SignerInfo.ofElement? SignerInfo.compare)
      (signersElement d.signers) d.signers) :
    ReadsAs ofElement? d.toElement d := by
  rw [toElement_eq]
  refine Der.readsAs_sequence ?_ fun hfits ↦ ?_
  · intro e he
    simp only [List.mem_cons, List.mem_append, Option.mem_toList, Option.map_eq_some_iff,
      List.not_mem_nil, or_false] at he
    obtain rfl | rfl | rfl | ⟨cs, -, rfl⟩ | ⟨rs, -, rfl⟩ | rfl := he
    · exact Der.Tag.isKnown_integer
    · exact Der.Tag.isKnown_set
    · exact Der.Tag.isKnown_sequence
    · exact Der.Tag.isKnown_context_zero
    · exact Der.Tag.isKnown_context_one
    · exact Der.Tag.isKnown_set
  · have hdigests := hdigests (hfits _ (by simp))
    have hcontent := hcontent (hfits _ (by simp))
    have hsigners := hsigners (hfits _ (by simp))
    refine Der.Fields.bind_eq_some (Der.Fields.field_eq_some hversion _) ?_
    refine Der.Fields.bind_eq_some (Der.Fields.field_eq_some hdigests _) ?_
    refine Der.Fields.bind_eq_some (Der.Fields.field_eq_some hcontent _) ?_
    refine Der.Fields.bind_eq_some (Der.Fields.implicit_numbered (by decide)
      (context_zero_revocations _ _) (fun cs hcs ↦ hfits _ (by simp [hcs]))
      fun cs hcs ↦ ⟨rfl, hcertificates cs hcs⟩) ?_
    refine Der.Fields.bind_eq_some (Der.Fields.implicit_numbered (by decide)
      (Der.Fields.context_cons_of_plain Der.Tag.isContext_set 1 [])
      (fun rs hrs ↦ hfits _ (by simp [hrs])) fun rs hrs ↦ ⟨rfl, hrevocations rs hrs⟩) ?_
    exact Der.Fields.bind_eq_some (Der.Fields.field_eq_some hsigners _) rfl

/-- Each signer of signed data that was read was read from an element inside. -/
theorem exists_of_mem_signers {e : Element} (h : ofElement? e = some d) {signer : SignerInfo}
    (hsigner : signer ∈ d.signers) :
    ∃ member : Element, member.Fits ∧ SignerInfo.ofElement? member = some signer := by
  obtain ⟨es, -, -, hfields⟩ := Der.sequence_eq_some_iff.1 h
  obtain ⟨_, _, _, -, -, hrest⟩ := Der.Fields.exists_of_field_bind hfields
  obtain ⟨_, _, _, -, -, hrest⟩ := Der.Fields.exists_of_field_bind hrest
  obtain ⟨_, _, _, -, -, hrest⟩ := Der.Fields.exists_of_field_bind hrest
  obtain ⟨_, _, -, hrest⟩ := Der.Fields.bind_eq_some_iff.1 hrest
  obtain ⟨_, _, -, hrest⟩ := Der.Fields.bind_eq_some_iff.1 hrest
  obtain ⟨_, _, _, -, hsigners, hend⟩ := Der.Fields.exists_of_field_bind hrest
  cases hend
  exact exists_of_setOf? hsigners hsigner

theorem fits_content_of_ofElement? {e x : Element} (h : ofElement? e = some d)
    (hx : d.content.content = some x) : x.Fits := by
  obtain ⟨es, -, -, hfields⟩ := Der.sequence_eq_some_iff.1 h
  obtain ⟨_, _, _, -, -, hrest⟩ := Der.Fields.exists_of_field_bind hfields
  obtain ⟨_, _, _, -, -, hrest⟩ := Der.Fields.exists_of_field_bind hrest
  obtain ⟨_, _, _, -, hcontent, hrest⟩ := Der.Fields.exists_of_field_bind hrest
  obtain ⟨_, _, -, hrest⟩ := Der.Fields.bind_eq_some_iff.1 hrest
  obtain ⟨_, _, -, hrest⟩ := Der.Fields.bind_eq_some_iff.1 hrest
  obtain ⟨_, _, _, -, -, hend⟩ := Der.Fields.exists_of_field_bind hrest
  cases hend
  exact EncapsulatedContent.fits_of_ofElement? hcontent hx

end SignedData

end SignedFirmware.Cms
