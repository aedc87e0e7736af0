import SignedFirmware.Proofs.X509.Certificate

/-!
# What a certificate was read from

The fields of a certificate that was read say almost everything about the element that it was read
from. What they leave open is in `TbsCertificate.Source`: whether the first version was written out,
how the sets in the two names were ordered, and what stood behind the public key. All of it is
dropped or put in order when the certificate is written, so that writing makes no certificate longer
than it was (`Certificate.length_encode_le_of_ofElement?`).
-/

namespace SignedFirmware.X509

open Der (Element)

/-! ## Parts -/

theorem Version.ofNat?_eq_some_iff {n : Nat} {v : Version} : ofNat? n = some v ↔ n = v.toNat := by
  constructor
  · fun_cases ofNat? n with
    | case1 | case2 | case3 =>
      rintro ⟨⟩
      rfl
    | case4 => rintro ⟨⟩
  · rintro rfl
    cases v <;> rfl

theorem Version.toNat_lt (v : Version) : v.toNat < 3 := by
  cases v <;> decide

theorem Version.eq_ofNat_of_ofElement? {e : Element} {v : Version} (h : ofElement? e = some v) :
    e = Der.ofNat v.toNat := by
  obtain ⟨n, hread, hn⟩ := Option.bind_eq_some_iff.1 h
  obtain rfl := Version.ofNat?_eq_some_iff.1 hn
  have hbelow : Der.natBelow? 3 e = some v.toNat := by
    rw [Der.natBelow?, hread]
    exact if_pos v.toNat_lt
  obtain ⟨x, rfl, hx⟩ := Der.eq_of_natBelow? (by decide) hbelow
  -- the number has one octet, and the octet is the number
  have hvalue : v.toNat = x.toNat := by
    have hbyte : Der.nat? ⟨Der.Tag.integer, [x]⟩ = some x.toNat := by
      have hsmall : x < 0x80 := UInt8.lt_iff_toNat_lt.2 (hx.trans (by decide))
      rw [← Bytes.toNat_singleton x]
      exact if_pos hsmall
    rw [hread] at hbyte
    exact Option.some.inj hbyte
  have hbyte : x = UInt8.ofNat v.toNat := by rw [hvalue, UInt8.ofNat_toNat]
  rw [hbyte]
  cases v <;> decide +kernel

theorem Name.length_encode_of_relative? {e : Element} {part : RelativeName}
    (h : relative? e = some part) : (relativeElement part).encode.length = e.encode.length := by
  refine Element.length_encode_congr (Cms.length_content_of_setOf? (fun e a ha ↦ ?_) h)
  rw [← NameAttribute.eq_toElement_of_ofElement? ha]

theorem Name.length_encode_le_of_ofElement? {e : Element} {n : Name} (h : ofElement? e = some n) :
    n.toElement.encode.length ≤ e.encode.length := by
  simp only [ofElement?, Option.bind_eq_bind, Option.pure_def, Option.bind_eq_some_iff,
    Option.some.injEq] at h
  obtain ⟨parts, hparts, rfl⟩ := h
  refine Element.length_encode_mono
    (Der.length_content_of_sequenceOf (fun e part hpart ↦ ?_) hparts)
  exact (length_encode_of_relative? hpart).le

/-- The spelling of an extension that says that it is not critical. -/
def Extension.spelledOut (x : Extension) : Element :=
  .ofElements Der.Tag.sequence [Der.ofOid x.id, Der.ofBool false, Der.ofOctets x.value]

theorem Extension.eq_or_eq_of_ofElement? {e : Element} {x : Extension} (h : ofElement? e = some x) :
    e = x.toElement ∨ (x.critical = false ∧ e = x.spelledOut) := by
  obtain ⟨es, rfl, -, hfields⟩ := Der.sequence_eq_some_iff.1 h
  obtain ⟨first, _, id, rfl, hid, hrest⟩ := Der.Fields.exists_of_field_bind hfields
  obtain ⟨critical, mid, hcritical, hrest⟩ := Der.Fields.bind_eq_some_iff.1 hrest
  obtain ⟨last, _, value, rfl, hvalue, hend⟩ := Der.Fields.exists_of_field_bind hrest
  cases hend
  obtain ⟨rfl, -⟩ := Der.oid?_eq_some_iff.1 hid
  obtain rfl := Der.octets?_eq_some_iff.1 hvalue
  rcases Der.Fields.optional_eq_some_iff.1 hcritical with ⟨rfl, rfl, -⟩ | ⟨f, b, rfl, -, hb, rfl⟩
  · exact .inl rfl
  · obtain rfl := Der.bool?_eq_some_iff.1 hb
    cases b with
    | true => exact .inl rfl
    | false => exact .inr ⟨rfl, rfl⟩

theorem Extension.length_encode_le_of_ofElement? {e : Element} {x : Extension}
    (h : ofElement? e = some x) : x.toElement.encode.length ≤ e.encode.length := by
  rcases eq_or_eq_of_ofElement? h with rfl | ⟨hcritical, rfl⟩
  · exact le_rfl
  · refine Element.length_encode_mono ?_
    simp only [toElement, spelledOut, hcritical, Element.ofElements, List.flatMap_append,
      List.flatMap_cons, List.flatMap_nil, List.length_append]
    simp

/-! ## The signed part -/

namespace TbsCertificate

variable {t : TbsCertificate}

/-- What is left open about the fields that the signed part of a certificate was read from. -/
structure Source (t : TbsCertificate) where
  /-- The field for the version. -/
  version : Option Element
  issuer : Element
  subject : Element
  /-- The fields behind the public key. -/
  numbered : List Element
  version_eq : (version = none ∧ t.version = .v1) ∨
    version = some (.ofElements (Der.Tag.context 0) [Der.ofNat t.version.toNat])
  issuer_read : Name.ofElement? issuer = some t.issuer
  subject_read : Name.ofElement? subject = some t.subject
  numbered_read : ∃ left left',
    Der.Fields.implicit 1 Der.Tag.bitString Der.bitString? numbered =
      some (t.issuerUniqueId, left) ∧
    Der.Fields.implicit 2 Der.Tag.bitString Der.bitString? left = some (t.subjectUniqueId, left') ∧
    Der.Fields.explicit 3 (Der.sequenceOf Extension.ofElement?) left' = some (t.extensions, [])

namespace Source

def fieldsBehindVersion (s : t.Source) : List Element :=
  ⟨Der.Tag.integer, t.serial⟩ :: t.signature.toElement :: s.issuer :: t.validity.toElement ::
    s.subject :: t.publicKey.toElement :: s.numbered

def fields (s : t.Source) : List Element := s.version.toList ++ s.fieldsBehindVersion

end Source

theorem exists_version_of_explicit {es rest : List Element} {found : Option Version}
    (h : Der.Fields.explicit 0 Version.ofElement? es = some (found, rest)) :
    ∃ version : Option Element, es = version.toList ++ rest ∧
      ((version = none ∧ found.getD .v1 = .v1) ∨
        version = some (.ofElements (Der.Tag.context 0) [Der.ofNat (found.getD .v1).toNat])) := by
  rcases Der.Fields.explicit_eq_some_iff.1 h with
    ⟨hcontext, rfl⟩ | ⟨e, inner, v, hcontext, hform, hinner, hread, rfl⟩
  · exact ⟨none, Der.Fields.eq_of_context_zero hcontext, .inl ⟨rfl, rfl⟩⟩
  · obtain ⟨rfl, hclass, hnumber⟩ := Der.Fields.context_zero_eq_some hcontext
    have htag := Der.Tag.eq_context_zero hclass hnumber hform
    have hcontent := (Der.elements?_eq_some_iff.1 hinner).2
    rw [Version.eq_ofNat_of_ofElement? hread] at hcontent
    refine ⟨some e, rfl, .inr ?_⟩
    rw [Option.getD_some, Element.ofElements, ← hcontent, ← htag]

theorem exists_source_of_ofElement? {e : Element} (h : ofElement? e = some t) :
    ∃ s : t.Source, e = .ofElements Der.Tag.sequence s.fields ∧ ∀ x ∈ s.fields, x.Fits := by
  obtain ⟨es, rfl, hfits, hfields⟩ := Der.sequence_eq_some_iff.1 h
  obtain ⟨_, _, hfound, hrest⟩ := Der.Fields.bind_eq_some_iff.1 hfields
  obtain ⟨version, rfl, hversion⟩ := exists_version_of_explicit hfound
  obtain ⟨_, _, _, rfl, hserial, hrest⟩ := Der.Fields.exists_of_field_bind hrest
  obtain ⟨_, _, _, rfl, hsignature, hrest⟩ := Der.Fields.exists_of_field_bind hrest
  obtain ⟨_, _, _, rfl, hissuer, hrest⟩ := Der.Fields.exists_of_field_bind hrest
  obtain ⟨_, _, _, rfl, hvalidity, hrest⟩ := Der.Fields.exists_of_field_bind hrest
  obtain ⟨_, _, _, rfl, hsubject, hrest⟩ := Der.Fields.exists_of_field_bind hrest
  obtain ⟨_, _, _, rfl, hpublicKey, hrest⟩ := Der.Fields.exists_of_field_bind hrest
  obtain ⟨_, _, hissuerId, hrest⟩ := Der.Fields.bind_eq_some_iff.1 hrest
  obtain ⟨_, _, hsubjectId, hrest⟩ := Der.Fields.bind_eq_some_iff.1 hrest
  obtain ⟨_, _, hextensions, hend⟩ := Der.Fields.bind_eq_some_iff.1 hrest
  cases hend
  obtain rfl := eq_of_serial? hserial
  obtain rfl := AlgorithmId.eq_toElement_of_ofElement? hsignature
  obtain rfl := Validity.eq_toElement_of_ofElement? hvalidity
  obtain rfl := PublicKeyInfo.eq_toElement_of_ofElement? hpublicKey
  exact ⟨⟨version, _, _, _, hversion, hissuer, hsubject, _, _, hissuerId, hsubjectId, hextensions⟩,
    rfl, hfits⟩

namespace Source

/-- The fields that are written behind the public key. -/
def written (t : TbsCertificate) : List Element :=
  (t.issuerUniqueId.map fun b ↦ (⟨Der.Tag.contextPlain 1, b.content⟩ : Element)).toList ++
    t.fieldsBehindIssuerId

theorem length_written_le (s : t.Source) :
    ((written t).flatMap Element.encode).length ≤ (s.numbered.flatMap Element.encode).length := by
  obtain ⟨left, left', hissuerId, hsubjectId, hextensions⟩ := s.numbered_read
  have hbits : ∀ (tag : Der.Tag) e (b : Der.BitString), Der.bitString? e = some b →
      (⟨tag, b.content⟩ : Element).content.length ≤ e.content.length := by
    intro tag e b hb
    rw [(Der.bitString?_eq_some_iff.1 hb).1]
    exact le_rfl
  have hlist : ∀ e xs, Der.sequenceOf Extension.ofElement? e = some xs →
      (extensionsElement xs).encode.length ≤ e.encode.length := fun _ _ hxs ↦
    Element.length_encode_mono
      (Der.length_content_of_sequenceOf (fun _ _ ↦ Extension.length_encode_le_of_ofElement?) hxs)
  have hissuerId := Der.Fields.length_of_implicit (hbits (Der.Tag.contextPlain 1)) hissuerId
  have hsubjectId := Der.Fields.length_of_implicit (hbits (Der.Tag.contextPlain 2)) hsubjectId
  have hextensions := Der.Fields.length_of_explicit (Der.Tag.context 3) hlist hextensions
  simp only [List.flatMap_append, List.length_append, List.append_nil]
    at hissuerId hsubjectId hextensions
  simp only [written, fieldsBehindIssuerId, extensionsField, List.flatMap_append,
    List.length_append]
  omega

end Source

theorem length_content_le_of_ofElement? {e : Element} (h : ofElement? e = some t) :
    t.toElement.content.length ≤ e.content.length := by
  obtain ⟨s, rfl, -⟩ := exists_source_of_ofElement? h
  have hversion : ((t.statedVersion.map fun v ↦
      Element.ofElements (Der.Tag.context 0) [Der.ofNat v.toNat]).toList.flatMap
        Element.encode).length ≤ (s.version.toList.flatMap Element.encode).length := by
    rcases s.version_eq with ⟨hnone, hv⟩ | hsome
    · rw [hnone, statedVersion, if_pos hv]
      exact le_rfl
    · rw [hsome, statedVersion]
      split
      · exact Nat.zero_le _
      · exact le_rfl
  have hissuer := Name.length_encode_le_of_ofElement? s.issuer_read
  have hsubject := Name.length_encode_le_of_ofElement? s.subject_read
  have hnumbered := s.length_written_le
  rw [toElement_eq]
  change (t.fields.flatMap Element.encode).length ≤ (s.fields.flatMap Element.encode).length
  simp only [fields, fieldsBehindVersion, Source.fields, Source.fieldsBehindVersion,
    ← Source.written.eq_def, List.flatMap_append, List.flatMap_cons, List.length_append]
  omega

end TbsCertificate

/-! ## Whole certificates -/

namespace Certificate

variable {c : Certificate}

/-- The signed part and the two fields behind it, which have one spelling. -/
theorem exists_eq_of_ofElement? {e : Element} (h : ofElement? e = some c) :
    ∃ tbs, e = .ofElements Der.Tag.sequence
        [tbs, c.signatureAlgorithm.toElement, Der.ofBitString c.signature] ∧
      (∀ x ∈ [tbs, c.signatureAlgorithm.toElement, Der.ofBitString c.signature], x.Fits) ∧
      TbsCertificate.ofElement? tbs = some c.tbs := by
  obtain ⟨es, rfl, hfits, hfields⟩ := Der.sequence_eq_some_iff.1 h
  obtain ⟨tbs, _, _, rfl, htbs, hrest⟩ := Der.Fields.exists_of_field_bind hfields
  obtain ⟨_, _, _, rfl, halgorithm, hrest⟩ := Der.Fields.exists_of_field_bind hrest
  obtain ⟨_, _, _, rfl, hsignature, hend⟩ := Der.Fields.exists_of_field_bind hrest
  cases hend
  obtain rfl := AlgorithmId.eq_toElement_of_ofElement? halgorithm
  obtain rfl := (Der.bitString?_eq_some_iff.1 hsignature).1
  exact ⟨tbs, rfl, hfits, htbs⟩

/-- Writing a certificate makes it no longer than it was. -/
theorem length_content_le_of_ofElement? {e : Element} (h : ofElement? e = some c) :
    c.toElement.content.length ≤ e.content.length := by
  obtain ⟨tbs, rfl, -, htbs⟩ := exists_eq_of_ofElement? h
  have hlength := Element.length_encode_mono (TbsCertificate.length_content_le_of_ofElement? htbs)
  simp only [toElement, Element.ofElements, List.flatMap_cons, List.length_append]
  omega

/-- **Written again, a certificate is the same.** Whatever spelling a certificate was read from, its
own encoding is short enough to be read, and is read as the certificate. -/
theorem decode?_encode_of_decode? {data : Bytes} (h : decode? data = some c) :
    decode? c.encode = some c := by
  obtain ⟨⟨found, rest⟩, hread, hfound⟩ := Option.map_eq_some_iff.1 h
  obtain rfl : found = c := hfound
  obtain ⟨hmax, e, -, rfl, he⟩ := Der.readFront?_eq_some_iff.1 hread
  have hshort : found.encode.length ≤ e.encode.length :=
    Element.length_encode_mono (length_content_le_of_ofElement? he)
  rw [List.length_append] at hmax
  exact (readable_iff (by omega)).1 ⟨e, he⟩

end Certificate

end SignedFirmware.X509
