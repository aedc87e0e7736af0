import SignedFirmware.Proofs.X509.AlgorithmId
import SignedFirmware.Proofs.X509.Name
import SignedFirmware.Proofs.X509.Time
import SignedFirmware.X509.Certificate

/-!
# Certificates read back

Reading a certificate forgets how it was spelled: sets are put in order, defaults that were written
out and fields of unknown number are dropped. So writing it may give other bytes than were read. But
these are read as the same certificate (`Certificate.readable_iff`), so nothing more is lost when it
is written and read again. What its parts meet if it was read from anything is in
`TbsCertificate.Readable`, and this is all that is needed to read it back.
-/

namespace SignedFirmware.X509

open Der (Element ReadsAs)

/-! ## Parts with one spelling -/

theorem eq_of_serial? {e : Element} {serial : Bytes} (h : serial? e = some serial) :
    e = ⟨Der.Tag.integer, serial⟩ := by
  obtain ⟨tag, content⟩ := e
  simp only [serial?, Der.integerContent?, Option.bind_eq_bind, Option.bind_eq_some_iff,
    Option.ite_none_right_eq_some, Option.some.injEq] at h
  obtain ⟨_, ⟨⟨rfl, -⟩, rfl⟩, -, rfl⟩ := h
  rfl

theorem Validity.eq_toElement_of_ofElement? {e : Element} {v : Validity}
    (h : ofElement? e = some v) : e = v.toElement := by
  obtain ⟨es, rfl, -, hfields⟩ := Der.sequence_eq_some_iff.1 h
  obtain ⟨first, _, notBefore, rfl, hfirst, hrest⟩ := Der.Fields.exists_of_field_bind hfields
  obtain ⟨second, _, notAfter, rfl, hsecond, hend⟩ := Der.Fields.exists_of_field_bind hrest
  cases hend
  rw [Time.eq_toElement_of_ofElement? hfirst, Time.eq_toElement_of_ofElement? hsecond]
  rfl

theorem PublicKeyInfo.eq_toElement_of_ofElement? {e : Element} {k : PublicKeyInfo}
    (h : ofElement? e = some k) : e = k.toElement := by
  obtain ⟨es, rfl, -, hfields⟩ := Der.sequence_eq_some_iff.1 h
  obtain ⟨first, _, algorithm, rfl, hfirst, hrest⟩ := Der.Fields.exists_of_field_bind hfields
  obtain ⟨second, _, key, rfl, hsecond, hend⟩ := Der.Fields.exists_of_field_bind hrest
  cases hend
  rw [AlgorithmId.eq_toElement_of_ofElement? hfirst, (Der.bitString?_eq_some_iff.1 hsecond).1]
  rfl

theorem Version.ofElement?_ofNat (v : Version) : ofElement? (Der.ofNat v.toNat) = some v := by
  cases v <;> decide +kernel

/-! ## Extensions -/

/-- An extension is read back, whether its criticality was written out or not. -/
theorem Extension.readsAs_toElement {e : Element} {x : Extension} (h : ofElement? e = some x) :
    ReadsAs ofElement? x.toElement x := by
  obtain ⟨es, rfl, -, hfields⟩ := Der.sequence_eq_some_iff.1 h
  obtain ⟨first, _, id, rfl, hfirst, hrest⟩ := Der.Fields.exists_of_field_bind hfields
  obtain ⟨critical, mid, -, hrest⟩ := Der.Fields.bind_eq_some_iff.1 hrest
  obtain ⟨last, _, value, rfl, -, hend⟩ := Der.Fields.exists_of_field_bind hrest
  cases hend
  obtain ⟨-, hid⟩ := Der.oid?_eq_some_iff.1 hfirst
  have hid : Der.oid? (Der.ofOid id) = some id := Der.oid?_eq_some_iff.2 ⟨rfl, hid⟩
  have hvalue : Der.octets? (Der.ofOctets value) = some value := rfl
  refine Der.readsAs_sequence ?_ fun _ ↦ ?_
  · have hbool : Der.Tag.isKnown (Der.ofBool true).tag = true := by decide
    cases critical.getD false <;> simp [Der.ofOctets, hbool]
  · rw [List.append_assoc, List.singleton_append]
    refine Der.Fields.bind_eq_some (Der.Fields.field_eq_some hid _) ?_
    cases critical.getD false with
    | false =>
      refine Der.Fields.bind_eq_some (Der.Fields.optional_cons_of_not_accepts rfl _ _) ?_
      exact Der.Fields.bind_eq_some (Der.Fields.field_eq_some hvalue _) rfl
    | true =>
      refine Der.Fields.bind_eq_some (Der.Fields.optional_cons_of_accepts rfl _ _) ?_
      exact Der.Fields.bind_eq_some (Der.Fields.field_eq_some hvalue _) rfl

theorem readsAs_extensionsElement {e : Element} {xs : List Extension}
    (h : Der.sequenceOf Extension.ofElement? e = some xs) :
    ReadsAs (Der.sequenceOf Extension.ofElement?) (extensionsElement xs) xs := by
  refine Der.readsAs_sequenceOf (fun _ _ ↦ Der.Tag.isKnown_sequence) fun x hx ↦ ?_
  obtain ⟨e, he⟩ := Der.exists_of_sequenceOf h hx
  exact Extension.readsAs_toElement he

/-! ## The signed part -/

namespace TbsCertificate

variable {t : TbsCertificate}

/-- The version, if it is written out. -/
def statedVersion (t : TbsCertificate) : Option Version :=
  if t.version = .v1 then none else some t.version

theorem getD_statedVersion : t.statedVersion.getD .v1 = t.version := by
  rw [statedVersion]
  split
  · rename_i h
    exact h.symm
  · rfl

/-- The field for the extensions, if there are any. -/
def extensionsField (t : TbsCertificate) : List Element :=
  (t.extensions.map fun xs ↦ Element.ofElements (Der.Tag.context 3) [extensionsElement xs]).toList

/-- The fields behind the unique identifier of the issuer. -/
def fieldsBehindIssuerId (t : TbsCertificate) : List Element :=
  (t.subjectUniqueId.map fun b ↦ (⟨Der.Tag.contextPlain 2, b.content⟩ : Element)).toList ++
    t.extensionsField

/-- The fields behind the version. -/
def fieldsBehindVersion (t : TbsCertificate) : List Element :=
  ⟨Der.Tag.integer, t.serial⟩ :: t.signature.toElement :: t.issuer.toElement ::
    t.validity.toElement :: t.subject.toElement :: t.publicKey.toElement ::
      ((t.issuerUniqueId.map fun b ↦ (⟨Der.Tag.contextPlain 1, b.content⟩ : Element)).toList ++
        t.fieldsBehindIssuerId)

def fields (t : TbsCertificate) : List Element :=
  (t.statedVersion.map fun v ↦
      Element.ofElements (Der.Tag.context 0) [Der.ofNat v.toNat]).toList ++ t.fieldsBehindVersion

theorem toElement_eq : t.toElement = .ofElements Der.Tag.sequence t.fields := by
  rw [toElement, fields, fieldsBehindVersion, fieldsBehindIssuerId, extensionsField, statedVersion]
  split <;> simp

theorem isKnown_fields : ∀ e ∈ t.fields, Der.Tag.isKnown e.tag = true := by
  intro e he
  simp only [fields, fieldsBehindVersion, fieldsBehindIssuerId, extensionsField, List.mem_append,
    List.mem_cons, Option.mem_toList, Option.map_eq_some_iff] at he
  rcases he with ⟨_, -, rfl⟩ | rfl | rfl | rfl | rfl | rfl | rfl | ⟨_, -, rfl⟩ | ⟨_, -, rfl⟩ |
    ⟨_, -, rfl⟩
  · exact Der.Tag.isKnown_context_zero
  · exact Der.Tag.isKnown_integer
  · exact Der.Tag.isKnown_sequence
  · exact Der.Tag.isKnown_sequence
  · exact Der.Tag.isKnown_sequence
  · exact Der.Tag.isKnown_sequence
  · exact Der.Tag.isKnown_sequence
  · exact (by decide : Der.Tag.isKnown (Der.Tag.contextPlain 1) = true)
  · exact (by decide : Der.Tag.isKnown (Der.Tag.contextPlain 2) = true)
  · exact (by decide : Der.Tag.isKnown (Der.Tag.context 3) = true)

/-- What the parts of a certificate meet that was read from anything. -/
structure Readable (t : TbsCertificate) : Prop where
  serial : serial? ⟨Der.Tag.integer, t.serial⟩ = some t.serial
  signature : AlgorithmId.ofElement? t.signature.toElement = some t.signature
  issuer : ReadsAs Name.ofElement? t.issuer.toElement t.issuer
  validity : Validity.ofElement? t.validity.toElement = some t.validity
  subject : ReadsAs Name.ofElement? t.subject.toElement t.subject
  publicKey : PublicKeyInfo.ofElement? t.publicKey.toElement = some t.publicKey
  issuerUniqueId : ∀ b, t.issuerUniqueId = some b → Der.bitString? (Der.ofBitString b) = some b
  subjectUniqueId : ∀ b, t.subjectUniqueId = some b → Der.bitString? (Der.ofBitString b) = some b
  extensions : ∀ xs, t.extensions = some xs →
    ReadsAs (Der.sequenceOf Extension.ofElement?) (extensionsElement xs) xs

/-- A unique identifier that was read under a number is read by itself. -/
theorem bitString?_of_implicit {n : UInt8} {es rest : List Element} {id : Option Der.BitString}
    (h : Der.Fields.implicit n Der.Tag.bitString Der.bitString? es = some (id, rest))
    {b : Der.BitString} (hb : id = some b) : Der.bitString? (Der.ofBitString b) = some b := by
  rcases Der.Fields.implicit_eq_some_iff.1 h with ⟨-, hnone⟩ | ⟨e, a, -, -, hread, hsome⟩
  · cases hnone.symm.trans hb
  · obtain rfl : a = b := Option.some.inj (hsome.symm.trans hb)
    rwa [← (Der.bitString?_eq_some_iff.1 hread).1]

theorem readable_of_ofElement? {e : Element} (h : ofElement? e = some t) : t.Readable := by
  obtain ⟨es, rfl, -, hfields⟩ := Der.sequence_eq_some_iff.1 h
  obtain ⟨_, _, -, hrest⟩ := Der.Fields.bind_eq_some_iff.1 hfields
  obtain ⟨_, _, _, rfl, hserial, hrest⟩ := Der.Fields.exists_of_field_bind hrest
  obtain ⟨_, _, _, rfl, hsignature, hrest⟩ := Der.Fields.exists_of_field_bind hrest
  obtain ⟨_, _, _, rfl, hissuer, hrest⟩ := Der.Fields.exists_of_field_bind hrest
  obtain ⟨_, _, _, rfl, hvalidity, hrest⟩ := Der.Fields.exists_of_field_bind hrest
  obtain ⟨_, _, _, rfl, hsubject, hrest⟩ := Der.Fields.exists_of_field_bind hrest
  obtain ⟨_, _, _, rfl, hpublicKey, hrest⟩ := Der.Fields.exists_of_field_bind hrest
  obtain ⟨_, _, hissuerId, hrest⟩ := Der.Fields.bind_eq_some_iff.1 hrest
  obtain ⟨_, _, hsubjectId, hrest⟩ := Der.Fields.bind_eq_some_iff.1 hrest
  obtain ⟨_, _, hextensions, hend⟩ := Der.Fields.bind_eq_some_iff.1 hrest
  cases hend
  refine ⟨?_, ?_, Name.readsAs_toElement hissuer, ?_, Name.readsAs_toElement hsubject, ?_,
    fun _ ↦ bitString?_of_implicit hissuerId, fun _ ↦ bitString?_of_implicit hsubjectId, ?_⟩
  · rwa [← eq_of_serial? hserial]
  · rwa [← AlgorithmId.eq_toElement_of_ofElement? hsignature]
  · rwa [← Validity.eq_toElement_of_ofElement? hvalidity]
  · rwa [← PublicKeyInfo.eq_toElement_of_ofElement? hpublicKey]
  · rintro xs rfl
    rcases Der.Fields.explicit_eq_some_iff.1 hextensions with
      ⟨-, hnone⟩ | ⟨_, _, a, -, -, -, hread, hsome⟩
    · cases hnone
    · cases hsome
      exact readsAs_extensionsElement hread

/-! ### Fields that may be absent -/

theorem context_extensionsField {n : UInt8} (h : n < 3) :
    Der.Fields.context n t.extensionsField = some (none, t.extensionsField) := by
  have hnumber : (Der.Tag.context 3).number = 3 := by decide
  have hlt : n < (Der.Tag.context 3).number := by rwa [hnumber]
  have hleft := Der.Fields.context_written_of_lt
    (fun xs ↦ by rwa [Der.ofElements_tag _ [extensionsElement xs]]) t.extensions
    (Der.Fields.context_nil n)
  rwa [List.append_nil] at hleft

theorem context_fieldsBehindIssuerId :
    Der.Fields.context 1 t.fieldsBehindIssuerId = some (none, t.fieldsBehindIssuerId) := by
  refine Der.Fields.context_written_of_lt (fun b ↦ ?_) _ (context_extensionsField (by decide))
  exact (by decide : 1 < (Der.Tag.contextPlain 2).number)

theorem explicit_extensionsField (h : t.Readable) (hfits : ∀ e ∈ t.extensionsField, e.Fits) :
    Der.Fields.explicit 3 (Der.sequenceOf Extension.ofElement?) t.extensionsField =
      some (t.extensions, []) := by
  have hread : ∀ xs, t.extensions = some xs → (extensionsElement xs).Fits ∧
      Der.sequenceOf Extension.ofElement? (extensionsElement xs) = some xs := by
    intro xs hxs
    have houter : (Element.ofElements (Der.Tag.context 3) [extensionsElement xs]).Fits :=
      hfits _ (by simp [extensionsField, hxs])
    have hinner : (extensionsElement xs).Fits :=
      houter.of_mem (by simp [extensionsElement]) _ (List.mem_singleton_self _)
    exact ⟨hinner, h.extensions xs hxs hinner⟩
  have hwritten := Der.Fields.explicit_written (n := 3) (by decide) (Der.Fields.context_nil 3) hread
  rwa [List.append_nil] at hwritten

theorem Readable.readsAs_toElement (h : t.Readable) : ReadsAs ofElement? t.toElement t := by
  rw [toElement_eq]
  refine Der.readsAs_sequence isKnown_fields fun hfits ↦ ?_
  have hplain : (⟨Der.Tag.integer, t.serial⟩ : Element).tag.isContext = false :=
    Der.Tag.isContext_integer
  have hversion : Der.Fields.explicit 0 Version.ofElement? t.fields =
      some (t.statedVersion, t.fieldsBehindVersion) :=
    Der.Fields.explicit_written (by decide) (Der.Fields.context_cons_of_plain hplain 0 _)
      fun v _ ↦ ⟨⟨Der.Tag.isKnown_integer, by cases v <;> decide +kernel⟩, v.ofElement?_ofNat⟩
  have hissuer := h.issuer (hfits _ (by simp [fields, fieldsBehindVersion]))
  have hsubject := h.subject (hfits _ (by simp [fields, fieldsBehindVersion]))
  have hissuerId : Der.Fields.implicit 1 Der.Tag.bitString Der.bitString?
      ((t.issuerUniqueId.map fun b ↦ (⟨Der.Tag.contextPlain 1, b.content⟩ : Element)).toList ++
        t.fieldsBehindIssuerId) = some (t.issuerUniqueId, t.fieldsBehindIssuerId) :=
    Der.Fields.implicit_written (by decide) (by decide) (by decide) context_fieldsBehindIssuerId
      h.issuerUniqueId
  have hsubjectId : Der.Fields.implicit 2 Der.Tag.bitString Der.bitString?
      t.fieldsBehindIssuerId = some (t.subjectUniqueId, t.extensionsField) :=
    Der.Fields.implicit_written (by decide) (by decide) (by decide)
      (context_extensionsField (by decide)) h.subjectUniqueId
  have hextensions := explicit_extensionsField h fun e he ↦
    hfits e (by simp [fields, fieldsBehindVersion, fieldsBehindIssuerId, he])
  refine Der.Fields.bind_eq_some hversion ?_
  refine Der.Fields.bind_eq_some (Der.Fields.field_eq_some h.serial _) ?_
  refine Der.Fields.bind_eq_some (Der.Fields.field_eq_some h.signature _) ?_
  refine Der.Fields.bind_eq_some (Der.Fields.field_eq_some hissuer _) ?_
  refine Der.Fields.bind_eq_some (Der.Fields.field_eq_some h.validity _) ?_
  refine Der.Fields.bind_eq_some (Der.Fields.field_eq_some hsubject _) ?_
  refine Der.Fields.bind_eq_some (Der.Fields.field_eq_some h.publicKey _) ?_
  refine Der.Fields.bind_eq_some hissuerId (Der.Fields.bind_eq_some hsubjectId ?_)
  refine Der.Fields.bind_eq_some hextensions ?_
  rw [getD_statedVersion]
  rfl

end TbsCertificate

/-! ## Whole certificates -/

namespace Certificate

variable {c : Certificate}

@[simp] theorem toElement_tag : c.toElement.tag = Der.Tag.sequence := rfl

/-- A certificate that some element is read as. These are all that matter: no reader gives any
other, and no other is read back. -/
def Readable (c : Certificate) : Prop := ∃ e, ofElement? e = some c

theorem Readable.parts (h : c.Readable) :
    c.tbs.Readable ∧
      AlgorithmId.ofElement? c.signatureAlgorithm.toElement = some c.signatureAlgorithm ∧
        Der.bitString? (Der.ofBitString c.signature) = some c.signature := by
  obtain ⟨e, h⟩ := h
  obtain ⟨es, rfl, -, hfields⟩ := Der.sequence_eq_some_iff.1 h
  obtain ⟨_, _, tbs, rfl, htbs, hrest⟩ := Der.Fields.exists_of_field_bind hfields
  obtain ⟨_, _, algorithm, rfl, halgorithm, hrest⟩ := Der.Fields.exists_of_field_bind hrest
  obtain ⟨_, _, signature, rfl, hsignature, hend⟩ := Der.Fields.exists_of_field_bind hrest
  cases hend
  refine ⟨TbsCertificate.readable_of_ofElement? htbs, ?_, ?_⟩
  · rwa [← AlgorithmId.eq_toElement_of_ofElement? halgorithm]
  · rwa [← (Der.bitString?_eq_some_iff.1 hsignature).1]

theorem Readable.readsAs_toElement (h : c.Readable) : ReadsAs ofElement? c.toElement c := by
  obtain ⟨htbs, halgorithm, hsignature⟩ := h.parts
  have hknown : ∀ e ∈
      [c.tbs.toElement, c.signatureAlgorithm.toElement, Der.ofBitString c.signature],
      Der.Tag.isKnown e.tag = true := by
    simp [TbsCertificate.toElement, Der.ofBitString]
  refine Der.readsAs_sequence hknown fun hfits ↦ ?_
  have htbs := htbs.readsAs_toElement (hfits _ List.mem_cons_self)
  refine Der.Fields.bind_eq_some (Der.Fields.field_eq_some htbs _) ?_
  refine Der.Fields.bind_eq_some (Der.Fields.field_eq_some halgorithm _) ?_
  exact Der.Fields.bind_eq_some (Der.Fields.field_eq_some hsignature _) rfl

theorem readable_of_decode? {data : Bytes} (h : decode? data = some c) : c.Readable := by
  obtain ⟨⟨found, rest⟩, hread, hfound⟩ := Option.map_eq_some_iff.1 h
  rw [show found = c from hfound] at hread
  obtain ⟨-, e, -, -, hdecode⟩ := Der.readFront?_eq_some_iff.1 hread
  exact ⟨e, hdecode⟩

/-- What stands behind a certificate is not looked at. -/
theorem decode?_append {data more : Bytes} (h : decode? data = some c)
    (hsize : (data ++ more).length ≤ Der.maxLength) : decode? (data ++ more) = some c := by
  obtain ⟨⟨found, rest⟩, hread, hfound⟩ := Option.map_eq_some_iff.1 h
  rw [decode?, Der.readFront?_append hread hsize, Option.map_some, hfound]

/-- Input that is too long for the length of any element is not read, whatever stands in front. -/
theorem decode?_eq_none_of_long {data : Bytes} (hlong : Der.maxLength < data.length) :
    decode? data = none := by
  rw [decode?, Der.readFront?, if_neg (Nat.not_le.2 hlong), Option.map_none]

/-- **Certificates read back.** Of certificates that are not too long, the readable ones are those
that their own encoding is read as. -/
theorem readable_iff (hlength : c.encode.length ≤ Der.maxLength) :
    c.Readable ↔ decode? c.encode = some c := by
  refine ⟨fun h ↦ ?_, readable_of_decode?⟩
  have hfits : c.toElement.Fits :=
    ⟨Der.Tag.isKnown_sequence, c.toElement.length_content_lt.le.trans hlength⟩
  have hread : Der.readFront? ofElement? c.encode = some (c, []) :=
    Der.readFront?_eq_some_iff.2
      ⟨hlength, c.toElement, hfits, (List.append_nil _).symm, h.readsAs_toElement hfits⟩
  rw [decode?, hread]
  rfl

end Certificate

end SignedFirmware.X509
