import SignedFirmware.Proofs.Der.Members
import SignedFirmware.Proofs.Der.Order
import SignedFirmware.Proofs.X509.Source

/-!
# Canonical certificates

Which certificates are written byte for byte as they were read. A reader lets some spellings through
that a writer never makes: a first version or a lacking criticality that is written out although it
is the default, sets whose members are not in order, and fields behind the public key that are out
of place. These are all. A certificate without any of them is canonical, and keeps its bytes
(`Certificate.toElement_eq_iff`).
-/

namespace SignedFirmware.X509

open Der (Element)

/-! ## Names -/

/-- In each relative name the attributes are in order. -/
def Name.IsCanonical (e : Element) : Prop := ∀ part ∈ e.members, part.IsOrdered

instance (e : Element) : Decidable (Name.IsCanonical e) := by
  unfold Name.IsCanonical; infer_instance

/-- Attributes are compared as their encodings are. -/
theorem NameAttribute.isChain_map_toElement {as : List NameAttribute}
    (h : ∀ e ∈ as.map toElement, e.Fits) :
    ((as.map toElement).IsChain fun a b ↦ Der.compareBytes a.encode b.encode = .lt) ↔
      as.IsChain fun a b ↦ compare a b = .lt := by
  rw [List.isChain_map]
  refine List.IsChain.iff_of_mem_imp fun a b ha hb ↦ ?_
  have ha : a.toElement.Fits := h _ (List.mem_map_of_mem ha)
  have hb : b.toElement.Fits := h _ (List.mem_map_of_mem hb)
  have hsame : Der.compareBytes a.toElement.encode b.toElement.encode = compare a b :=
    Der.compareBytes_encode_pair ha.short hb.short
  rw [hsame]

theorem Name.relativeElement_eq_iff {e : Element} {part : RelativeName} (hfits : e.Fits)
    (h : relative? e = some part) : relativeElement part = e ↔ e.IsOrdered := by
  obtain ⟨htag, members, as, hmembers, has, hsorted⟩ := Cms.setOf?_eq_some_iff.1 h
  obtain ⟨hspelled, hcontent⟩ := Der.elements?_eq_some_iff.1 hmembers
  -- the members are spelled as they are written, so only their order is open
  obtain rfl : as.map NameAttribute.toElement = members := by
    have hkept : as.map NameAttribute.toElement = members.map id :=
      map_eq_of_mapM_eq_some (fun _ _ ha ↦ (NameAttribute.eq_toElement_of_ofElement? ha).symm) has
    rwa [List.map_id] at hkept
  obtain rfl : e = .ofElements Der.Tag.set (as.map NameAttribute.toElement) := by
    rw [Element.ofElements, ← hcontent, ← htag]
  rw [relativeElement, Element.ofElements_inj hfits.short, Element.IsOrdered,
    Element.members_ofElements hspelled]
  constructor
  · intro hsame
    rw [← hsame] at hspelled ⊢
    exact (NameAttribute.isChain_map_toElement hspelled).2
      (Der.isChain_of_sortSet? NameAttribute.mirrors_compare hsorted)
  · intro hchain
    rw [Der.sortSet?_eq_self ((NameAttribute.isChain_map_toElement hspelled).1 hchain)] at hsorted
    rw [Option.some.inj hsorted]

theorem Name.toElement_eq_iff {e : Element} {n : Name} (hfits : e.Fits)
    (h : ofElement? e = some n) : n.toElement = e ↔ IsCanonical e := by
  simp only [ofElement?, Option.bind_eq_bind, Option.pure_def, Option.bind_eq_some_iff,
    Option.some.injEq] at h
  obtain ⟨parts, hparts, rfl⟩ := h
  exact Der.ofElements_eq_iff_of_sequenceOf (fun _ hfits _ ↦ relativeElement_eq_iff hfits) hfits
    hparts

/-! ## Extensions -/

/-- Nothing is said about the criticality unless the extension is critical. -/
def Extension.IsCanonical (e : Element) : Prop := Der.ofBool false ∉ e.members

instance (e : Element) : Decidable (Extension.IsCanonical e) := by
  unfold Extension.IsCanonical; infer_instance

theorem Extension.toElement_eq_iff {e : Element} {x : Extension} (hfits : e.Fits)
    (h : ofElement? e = some x) : x.toElement = e ↔ IsCanonical e := by
  have hbool : ∀ b, Der.Tag.isKnown (Der.ofBool b).tag = true := fun b ↦ by cases b <;> decide
  rcases eq_or_eq_of_ofElement? h with rfl | ⟨hcritical, rfl⟩
  · refine iff_of_true rfl ?_
    have hmembers := hfits.of_mem (by cases x.critical <;> simp [Der.ofOctets, hbool])
    rw [IsCanonical, toElement, Element.members_ofElements hmembers]
    have hoid : Der.Tag.boolean ≠ Der.Tag.oid := by decide
    have hoctets : Der.Tag.boolean ≠ Der.Tag.octetString := by decide
    cases x.critical <;> simp [Der.ofBool, Der.ofOid, Der.ofOctets, hoid, hoctets]
  · have hmembers := hfits.of_mem (by simp [Der.ofOctets, hbool])
    refine iff_of_false (fun hsame ↦ ?_) fun hcanonical ↦ ?_
    · rw [toElement, spelledOut, Element.ofElements_inj hfits.short, hcritical] at hsame
      simp at hsame
    · rw [IsCanonical, spelledOut, Element.members_ofElements hmembers] at hcanonical
      simp at hcanonical

/-! ## The signed part -/

namespace TbsCertificate

/-- The fields behind the version, if that is written out. -/
def behindVersion (es : List Element) : List Element :=
  es.dropWhile (·.tag == Der.Tag.context 0)

/-- The tags of the fields behind the public key, in their order. -/
def numberedTags : List Der.Tag :=
  [Der.Tag.contextPlain 1, Der.Tag.contextPlain 2, Der.Tag.context 3]

/-- In each list of extensions, each extension is canonical. -/
def ExtensionsAreCanonical (field : Element) : Prop :=
  ∀ list ∈ field.members, ∀ x ∈ list.members, Extension.IsCanonical x

instance (field : Element) : Decidable (ExtensionsAreCanonical field) := by
  unfold ExtensionsAreCanonical; infer_instance

/-- The fields of the signed part of a certificate are canonical: the first version is not written
out, both names are canonical, the fields behind the public key are in their order, each at most
once, and the extensions are canonical. -/
structure IsCanonical (es : List Element) : Prop where
  version : es.head? ≠ some (.ofElements (Der.Tag.context 0) [Der.ofNat 0])
  issuer : ∀ e ∈ (behindVersion es)[2]?, Name.IsCanonical e
  subject : ∀ e ∈ (behindVersion es)[4]?, Name.IsCanonical e
  numbered : (((behindVersion es).drop 6).map Element.tag).Sublist numberedTags
  extensions : ∀ field ∈ (behindVersion es).drop 6, field.tag = Der.Tag.context 3 →
    ExtensionsAreCanonical field

instance (es : List Element) : Decidable (IsCanonical es) :=
  decidable_of_iff
    (es.head? ≠ some (.ofElements (Der.Tag.context 0) [Der.ofNat 0]) ∧
      (∀ e ∈ (behindVersion es)[2]?, Name.IsCanonical e) ∧
      (∀ e ∈ (behindVersion es)[4]?, Name.IsCanonical e) ∧
      (((behindVersion es).drop 6).map Element.tag).Sublist numberedTags ∧
      ∀ field ∈ (behindVersion es).drop 6, field.tag = Der.Tag.context 3 →
        ExtensionsAreCanonical field)
    ⟨fun ⟨h1, h2, h3, h4, h5⟩ ↦ ⟨h1, h2, h3, h4, h5⟩,
      fun ⟨h1, h2, h3, h4, h5⟩ ↦ ⟨h1, h2, h3, h4, h5⟩⟩

variable {t : TbsCertificate}

namespace Source

theorem behindVersion_fields (s : t.Source) : behindVersion s.fields = s.fieldsBehindVersion := by
  have hserial : (Der.Tag.integer == Der.Tag.context 0) = false := by decide
  have hrest : behindVersion s.fieldsBehindVersion = s.fieldsBehindVersion := by
    rw [behindVersion, fieldsBehindVersion, List.dropWhile_cons_of_neg]
    exact ne_true_of_eq_false hserial
  rcases s.version_eq with ⟨hnone, -⟩ | hsome
  · rw [fields, hnone]
    exact hrest
  · rw [fields, hsome, behindVersion, Option.toList_some, List.singleton_append,
      List.dropWhile_cons, Element.ofElements, beq_self_eq_true, if_pos rfl]
    exact hrest

theorem tags_written : ((written t).map Element.tag).Sublist numberedTags := by
  have hone : ∀ {α : Type} (value : Option α) (write : α → Element) (tag : Der.Tag),
      (∀ a, (write a).tag = tag) → ((value.map write).toList.map Element.tag).Sublist [tag] := by
    intro α value write tag htag
    cases value with
    | none => exact List.nil_sublist _
    | some a =>
      rw [Option.map_some, Option.toList_some, List.map_singleton, htag]
  rw [written, fieldsBehindIssuerId, extensionsField, List.map_append, List.map_append]
  refine (hone _ _ (Der.Tag.contextPlain 1) fun _ ↦ rfl).append ?_
  exact (hone _ _ (Der.Tag.contextPlain 2) fun _ ↦ rfl).append
    (hone _ _ (Der.Tag.context 3) fun _ ↦ rfl)

/-- If the fields behind the public key are in order, what is written there is what was read, up to
the extensions. -/
theorem exists_numbered_eq (s : t.Source)
    (hsub : (s.numbered.map Element.tag).Sublist numberedTags) :
    ∃ before behind, written t = before ++ t.extensionsField ∧ s.numbered = before ++ behind ∧
      (∀ field ∈ before, field.tag ≠ Der.Tag.context 3) ∧
      ((behind = [] ∧ t.extensions = none) ∨ ∃ inner xs,
        behind = [.ofElements (Der.Tag.context 3) [inner]] ∧
        Der.sequenceOf Extension.ofElement? inner = some xs ∧ t.extensions = some xs) := by
  obtain ⟨left, left', hissuerId, hsubjectId, hextensions⟩ := s.numbered_read
  have hwrite : ∀ (tag : Der.Tag) (e : Element) (b : Der.BitString), e.tag = tag →
      Der.bitString? ⟨Der.Tag.bitString, e.content⟩ = some b → ⟨tag, b.content⟩ = e := by
    intro tag e b htag hb
    have hcontent : e.content = b.content :=
      congrArg Element.content (Der.bitString?_eq_some_iff.1 hb).1
    rw [← hcontent, ← htag]
  have hone : ∀ u ∈ [Der.Tag.contextPlain 2, Der.Tag.context 3], 1 < u.number :=
    List.forall_mem_cons.2 ⟨by decide, List.forall_mem_singleton.2 (by decide)⟩
  have htwo : ∀ u ∈ [Der.Tag.context 3], 2 < u.number := List.forall_mem_singleton.2 (by decide)
  have hthree : ∀ u ∈ ([] : List Der.Tag), 3 < u.number := List.forall_mem_nil _
  -- field by field, with the tags that may still follow each of them
  obtain ⟨hnumbered, hsub⟩ := Der.Fields.eq_append_of_implicit (by decide) (by decide) hone
    (hwrite (Der.Tag.contextPlain 1)) hsub hissuerId
  obtain ⟨hleft, hsub⟩ := Der.Fields.eq_append_of_implicit (by decide) (by decide) htwo
    (hwrite (Der.Tag.contextPlain 2)) hsub hsubjectId
  obtain ⟨-, hleft'⟩ :=
    Der.Fields.eq_append_of_explicit (by decide) (by decide) hthree hsub hextensions
  rw [hleft, ← List.append_assoc] at hnumbered
  refine ⟨_, left', by rw [written, fieldsBehindIssuerId, List.append_assoc], hnumbered, ?_, ?_⟩
  · have hissuerTag : Der.Tag.contextPlain 1 ≠ Der.Tag.context 3 := by decide
    have hsubjectTag : Der.Tag.contextPlain 2 ≠ Der.Tag.context 3 := by decide
    intro field hfield
    simp only [List.mem_append, Option.mem_toList, Option.map_eq_some_iff] at hfield
    rcases hfield with ⟨_, -, rfl⟩ | ⟨_, -, rfl⟩
    · exact hissuerTag
    · exact hsubjectTag
  · rcases hleft' with ⟨hnone, rfl⟩ | ⟨inner, xs, rfl, hread, hsome⟩
    · exact .inl ⟨rfl, hnone⟩
    · exact .inr ⟨inner, xs, rfl, hread, hsome⟩

theorem written_eq_iff (s : t.Source) (hfits : ∀ e ∈ s.numbered, e.Fits) :
    written t = s.numbered ↔ (s.numbered.map Element.tag).Sublist numberedTags ∧
      ∀ field ∈ s.numbered, field.tag = Der.Tag.context 3 → ExtensionsAreCanonical field := by
  -- what is written is in order, so it is not what was read if that is not
  by_cases hsub : (s.numbered.map Element.tag).Sublist numberedTags
  swap
  · exact iff_of_false (fun hsame ↦ hsub (hsame ▸ tags_written)) fun h ↦ hsub h.1
  obtain ⟨before, behind, hwritten, hnumbered, hplain, hbehind⟩ := s.exists_numbered_eq hsub
  rw [and_iff_right hsub, hwritten, hnumbered, List.append_cancel_left_eq, extensionsField,
    List.forall_mem_append, and_iff_right fun f hf htag ↦ absurd htag (hplain f hf)]
  rcases hbehind with ⟨rfl, hnone⟩ | ⟨inner, xs, rfl, hread, hsome⟩
  · rw [hnone]
    simp
  · have houter : (Element.ofElements (Der.Tag.context 3) [inner]).Fits :=
      hfits _ (by rw [hnumbered]; simp)
    have htag : Der.Tag.isKnown inner.tag = true := by
      obtain ⟨es, rfl, -⟩ := Der.sequenceOf_eq_some_iff.1 hread
      exact Der.Tag.isKnown_sequence
    have hinner : ∀ e ∈ [inner], e.Fits := houter.of_mem (by simpa using htag)
    have hmember : (Element.ofElements (Der.Tag.context 3) [inner]).members = [inner] :=
      Element.members_ofElements hinner
    have hiff : extensionsElement xs = inner ↔ ∀ x ∈ inner.members, Extension.IsCanonical x :=
      Der.ofElements_eq_iff_of_sequenceOf (fun _ hfits _ ↦ Extension.toElement_eq_iff hfits)
        (hinner inner (List.mem_singleton_self inner)) hread
    rw [hsome, Option.map_some, Option.toList_some, List.singleton_inj,
      Element.ofElements_inj houter.short, List.singleton_inj, hiff]
    simp only [List.mem_singleton, forall_eq, ExtensionsAreCanonical, hmember,
      Der.ofElements_tag, forall_const]

theorem fields_eq_iff (s : t.Source) :
    t.fields = s.fields ↔
      s.fields.head? ≠ some (.ofElements (Der.Tag.context 0) [Der.ofNat 0]) ∧
        t.issuer.toElement = s.issuer ∧ t.subject.toElement = s.subject ∧
          written t = s.numbered := by
  have hrest : t.fieldsBehindVersion = s.fieldsBehindVersion ↔ t.issuer.toElement = s.issuer ∧
      t.subject.toElement = s.subject ∧ written t = s.numbered := by
    rw [TbsCertificate.fieldsBehindVersion, fieldsBehindVersion, ← written]
    simp only [List.cons.injEq, true_and]
  have htag : Der.Tag.integer ≠ Der.Tag.context 0 := by decide
  have hserial : ∀ field : Element, field.tag = Der.Tag.context 0 →
      (⟨Der.Tag.integer, t.serial⟩ : Element) ≠ field := by
    rintro field hfield rfl
    exact htag hfield
  rw [← hrest, TbsCertificate.fields, fields, statedVersion]
  -- a version that is the default may stand there, but it is not written
  rcases s.version_eq with ⟨hnone, hv⟩ | hsome
  · rw [hnone, if_pos hv]
    refine (and_iff_right fun hhead ↦ ?_).symm
    exact hserial _ rfl (Option.some.inj hhead)
  · rw [hsome]
    by_cases hv : t.version = .v1
    · rw [if_pos hv]
      refine iff_of_false (fun hsame ↦ ?_) fun h ↦ h.1 ?_
      · exact hserial _ rfl (List.cons.inj hsame).1
      · rw [hv]
        rfl
    · have hstated : Element.ofElements (Der.Tag.context 0) [Der.ofNat t.version.toNat] ≠
          .ofElements (Der.Tag.context 0) [Der.ofNat 0] := by
        cases hversion : t.version with
        | v1 => exact absurd hversion hv
        | v2 | v3 => decide +kernel
      rw [if_neg hv, Option.map_some, List.append_cancel_left_eq]
      exact (and_iff_right fun hhead ↦ hstated (Option.some.inj hhead)).symm

end Source

theorem toElement_eq_iff {e : Element} (hfits : e.Fits) (h : ofElement? e = some t) :
    t.toElement = e ↔ IsCanonical e.members := by
  obtain ⟨s, rfl, hfields⟩ := exists_source_of_ofElement? h
  have hmem : ∀ x ∈ s.fieldsBehindVersion, x.Fits := fun x hx ↦
    hfields x (List.mem_append_right _ hx)
  rw [toElement_eq, Element.ofElements_inj hfits.short, Element.members_ofElements hfields,
    s.fields_eq_iff,
    Name.toElement_eq_iff (hmem _ (by simp [Source.fieldsBehindVersion])) s.issuer_read,
    Name.toElement_eq_iff (hmem _ (by simp [Source.fieldsBehindVersion])) s.subject_read,
    s.written_eq_iff fun x hx ↦ hmem x (by simp [Source.fieldsBehindVersion, hx])]
  have hbehind := s.behindVersion_fields
  constructor
  · rintro ⟨hversion, hissuer, hsubject, hnumbered, hextensions⟩
    refine ⟨hversion, ?_, ?_, ?_, ?_⟩
    all_goals rw [hbehind]
    · intro e he
      obtain rfl : s.issuer = e := Option.some.inj he
      exact hissuer
    · intro e he
      obtain rfl : s.subject = e := Option.some.inj he
      exact hsubject
    · exact hnumbered
    · exact hextensions
  · rintro ⟨hversion, hissuer, hsubject, hnumbered, hextensions⟩
    rw [hbehind] at hissuer hsubject hnumbered hextensions
    exact ⟨hversion, hissuer _ rfl, hsubject _ rfl, hnumbered, hextensions⟩

end TbsCertificate

/-! ## Whole certificates -/

namespace Certificate

/-- The signed part is canonical. Nothing else of a certificate has more than one spelling. -/
def IsCanonical (e : Element) : Prop :=
  ∀ tbs ∈ e.members.head?, TbsCertificate.IsCanonical tbs.members

instance (e : Element) : Decidable (IsCanonical e) := by unfold IsCanonical; infer_instance

variable {c : Certificate}

/-- **Certificates that keep their bytes.** A certificate is written as it was read if and only if
it was canonical, and so are the bytes that its signature covers. -/
theorem encode_eq_iff {e : Element} (hfits : e.Fits) (h : ofElement? e = some c) :
    (c.encode = e.encode ↔ IsCanonical e) ∧
      ∃ tbs, e.members.head? = some tbs ∧ (c.signedBytes = tbs.encode ↔ IsCanonical e) := by
  have hlength := (length_content_le_of_ofElement? h).trans hfits.short
  obtain ⟨tbs, rfl, hmembers, htbs⟩ := exists_eq_of_ofElement? h
  obtain ⟨htbsFits, -⟩ := List.forall_mem_cons.1 hmembers
  have htbsLength := (TbsCertificate.length_content_le_of_ofElement? htbs).trans htbsFits.short
  have hcanonical : c.tbs.toElement = tbs ↔ IsCanonical (.ofElements Der.Tag.sequence
      [tbs, c.signatureAlgorithm.toElement, Der.ofBitString c.signature]) := by
    rw [TbsCertificate.toElement_eq_iff htbsFits htbs, IsCanonical,
      Element.members_ofElements hmembers]
    simp
  refine ⟨?_, tbs, by rw [Element.members_ofElements hmembers]; rfl, ?_⟩
  · rw [encode, Element.encode_inj hlength hfits.short, toElement,
      Element.ofElements_inj hfits.short, List.cons.injEq, and_iff_left rfl, hcanonical]
  · rw [signedBytes, Element.encode_inj htbsLength htbsFits.short, hcanonical]

end Certificate

end SignedFirmware.X509
