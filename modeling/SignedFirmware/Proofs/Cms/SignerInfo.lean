import SignedFirmware.Cms.SignerInfo
import SignedFirmware.Proofs.Cms.Attribute
import SignedFirmware.Proofs.X509.AlgorithmId

/-!
# Signers read back
-/

namespace SignedFirmware.Cms

open Der (Element Mirrors ReadsAs Transits)
open X509 (AlgorithmId)

namespace SignerId

theorem readsAs_issuerAndSerial {issuer : X509.Name} {serial : Bytes}
    (hissuer : ReadsAs X509.Name.ofElement? issuer.toElement issuer)
    (hserial : X509.serial? ⟨Der.Tag.integer, serial⟩ = some serial) :
    ReadsAs ofElement? (toElement (.issuerAndSerial issuer serial))
      (.issuerAndSerial issuer serial) := by
  intro hfits
  have htag : Der.Tag.sequence ≠ keyTag := by decide
  rw [ofElement?, toElement, Der.ofElements_tag, if_neg htag]
  have hknown : ∀ e ∈ [issuer.toElement, ⟨Der.Tag.integer, serial⟩],
      Der.Tag.isKnown e.tag = true := by
    simp [X509.Name.toElement]
  refine Der.readsAs_sequence hknown (fun hchildren ↦ ?_) hfits
  have hissuer := hissuer (hchildren issuer.toElement (by simp))
  refine Der.Fields.bind_eq_some (Der.Fields.field_eq_some hissuer _) ?_
  exact Der.Fields.bind_eq_some (Der.Fields.field_eq_some hserial _) rfl

end SignerId

namespace SignerInfo

variable {s : SignerInfo}

@[simp] theorem toElement_tag : s.toElement.tag = Der.Tag.sequence := rfl

theorem toElement_eq :
    s.toElement = .ofElements Der.Tag.sequence
      (Der.ofNat s.version :: s.id.toElement :: s.digestAlgorithm.toElement ::
        ((s.signedAttributes.map fun as ↦ Der.numbered 0 (Attribute.setElement as)).toList ++
          s.signatureAlgorithm.toElement :: Der.ofOctets s.signature ::
            ((s.unsignedAttributes.map fun as ↦
              Der.numbered 1 (Attribute.setElement as)).toList ++ []))) := by
  simp only [toElement, List.append_assoc, List.cons_append, List.nil_append, List.append_nil]
  rfl

theorem readsAs_toElement
    (hversion : Der.natBelow? versionLimit (Der.ofNat s.version) = some s.version)
    (hid : ReadsAs SignerId.ofElement? s.id.toElement s.id)
    (hknown : Der.Tag.isKnown s.id.toElement.tag = true)
    (hdigest : ReadsAs AlgorithmId.ofElement? s.digestAlgorithm.toElement s.digestAlgorithm)
    (hsigned : ∀ as, s.signedAttributes = some as →
      ReadsAs Attribute.setOf? (Attribute.setElement as) as)
    (hsignature :
      ReadsAs AlgorithmId.ofElement? s.signatureAlgorithm.toElement s.signatureAlgorithm)
    (hunsigned : ∀ as, s.unsignedAttributes = some as →
      ReadsAs Attribute.setOf? (Attribute.setElement as) as) :
    ReadsAs ofElement? s.toElement s := by
  rw [toElement_eq]
  refine Der.readsAs_sequence ?_ fun hfits ↦ ?_
  · intro e he
    simp only [List.mem_cons, List.mem_append, Option.mem_toList, Option.map_eq_some_iff,
      List.not_mem_nil, or_false] at he
    obtain rfl | rfl | rfl | ⟨as, -, rfl⟩ | rfl | rfl | ⟨as, -, rfl⟩ := he
    · exact Der.Tag.isKnown_integer
    · exact hknown
    · exact Der.Tag.isKnown_sequence
    · exact Der.Tag.isKnown_context_zero
    · exact Der.Tag.isKnown_sequence
    · exact Der.Tag.isKnown_octetString
    · exact Der.Tag.isKnown_context_one
  · have hid := hid (hfits _ (by simp))
    have hdigest := hdigest (hfits _ (by simp))
    have hsignature := hsignature (hfits _ (by simp))
    have hoctets : Der.octets? (Der.ofOctets s.signature) = some s.signature := rfl
    have hplain : s.signatureAlgorithm.toElement.tag.isContext = false := Der.Tag.isContext_sequence
    refine Der.Fields.bind_eq_some (Der.Fields.field_eq_some hversion _) ?_
    refine Der.Fields.bind_eq_some (Der.Fields.field_eq_some hid _) ?_
    refine Der.Fields.bind_eq_some (Der.Fields.field_eq_some hdigest _) ?_
    -- what comes next has a plain tag, so it is not taken for attributes that are absent
    refine Der.Fields.bind_eq_some (Der.Fields.implicit_numbered (by decide)
      (Der.Fields.context_cons_of_plain hplain 0 _) (fun as has ↦ hfits _ (by simp [has]))
      fun as has ↦ ⟨rfl, hsigned as has⟩) ?_
    refine Der.Fields.bind_eq_some (Der.Fields.field_eq_some hsignature _) ?_
    refine Der.Fields.bind_eq_some (Der.Fields.field_eq_some hoctets _) ?_
    exact Der.Fields.bind_eq_some (Der.Fields.implicit_numbered (by decide)
      (Der.Fields.context_nil 1) (fun as has ↦ hfits _ (by simp [has]))
      fun as has ↦ ⟨rfl, hunsigned as has⟩) rfl

/-- The signed attributes of a signer that was read are no longer than the signer. -/
theorem length_encode_setElement_le {e : Element} (h : ofElement? e = some s)
    {as : List Attribute} (has : s.signedAttributes = some as) :
    (Attribute.setElement as).encode.length ≤ e.content.length := by
  obtain ⟨es, rfl, -, hfields⟩ := Der.sequence_eq_some_iff.1 h
  obtain ⟨_, _, _, rfl, -, hrest⟩ := Der.Fields.exists_of_field_bind hfields
  obtain ⟨_, _, _, rfl, -, hrest⟩ := Der.Fields.exists_of_field_bind hrest
  obtain ⟨_, left, _, rfl, -, hrest⟩ := Der.Fields.exists_of_field_bind hrest
  obtain ⟨signed, _, hsigned, hrest⟩ := Der.Fields.bind_eq_some_iff.1 hrest
  obtain ⟨_, _, _, rfl, -, hrest⟩ := Der.Fields.exists_of_field_bind hrest
  obtain ⟨_, _, _, rfl, -, hrest⟩ := Der.Fields.exists_of_field_bind hrest
  obtain ⟨_, _, -, hend⟩ := Der.Fields.bind_eq_some_iff.1 hrest
  cases hend
  rcases Der.Fields.implicit_eq_some_iff.1 hsigned with
    ⟨-, hnone⟩ | ⟨found, _, hfound, -, hread, hsome⟩
  · cases hnone.symm.trans has
  · cases hsome.symm.trans has
    have hmem : found ∈ left := Der.Fields.mem_of_context hfound
    have hsame : (Attribute.setElement as).encode.length = found.encode.length :=
      (Attribute.length_encode_setElement_of_setOf? hread).trans (Element.length_encode_congr rfl)
    rw [hsame]
    exact Der.length_encode_le_of_mem (by simp [hmem])

theorem mirrors_compare (a b : SignerInfo) : Mirrors (compare a b) (compare b a) :=
  Mirrors.foldl_then
    (.cons (Mirrors.compareHeader _ _)
      (.cons (Mirrors.comparePlain _ _)
        (.cons (Mirrors.compareChoice _ _)
          (.cons (AlgorithmId.mirrors_compare _ _)
            (.cons (Mirrors.compareOptional Attribute.mirrors_compareSets _ _)
              (.cons (AlgorithmId.mirrors_compare _ _)
                (.cons (Mirrors.comparePlain _ _)
                  (.cons (Mirrors.compareOptional Attribute.mirrors_compareSets _ _) .nil))))))))
    .equal

theorem transits_compare (a b c : SignerInfo) :
    Transits (compare a b) (compare b c) (compare a c) :=
  (((((((Transits.equal.andThen (Transits.compareHeader _ _ _)).andThen
    (Transits.comparePlain _ _ _)).andThen
    (Transits.compareChoice _ _ _)).andThen
    (AlgorithmId.transits_compare _ _ _)).andThen
    (Transits.compareOptional Attribute.transits_compareSets _ _ _)).andThen
    (AlgorithmId.transits_compare _ _ _)).andThen
    (Transits.comparePlain _ _ _)).andThen
    (Transits.compareOptional Attribute.transits_compareSets _ _ _)

end SignerInfo

end SignedFirmware.Cms
