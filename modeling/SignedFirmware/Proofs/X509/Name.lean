import SignedFirmware.Proofs.Cms.Attribute
import SignedFirmware.X509.Name

/-!
# Names read back

Reading a name sorts the sets in it, so its spelling may be another one than that which was read.
But that spelling is read as the same name again.
-/

namespace SignedFirmware.X509

open Der (Element Mirrors ReadsAs)

namespace NameAttribute

variable {a : NameAttribute}

theorem eq_toElement_of_ofElement? {e : Element} (h : ofElement? e = some a) :
    e = a.toElement := by
  obtain ⟨es, rfl, -, hfields⟩ := Der.sequence_eq_some_iff.1 h
  obtain ⟨o, mid, oid, rfl, hoid, hrest⟩ := Der.Fields.exists_of_field_bind hfields
  obtain ⟨rfl, -⟩ := Der.oid?_eq_some_iff.1 hoid
  obtain ⟨value, rest, hvalue, hend⟩ := Der.Fields.bind_eq_some_iff.1 hrest
  cases hend
  cases mid with
  | nil => cases hvalue
  | cons p more =>
    cases hvalue
    rfl

theorem mirrors_compare (a b : NameAttribute) : Mirrors (compare a b) (compare b a) :=
  ((Mirrors.compareHeader _ _).andThen (Mirrors.comparePlain _ _)).andThen
    (Mirrors.comparePlain _ _)

end NameAttribute

namespace Name

theorem readsAs_relativeElement {e : Element} {part : RelativeName}
    (h : relative? e = some part) : ReadsAs relative? (relativeElement part) part := by
  refine Cms.readsAs_of_setOf? NameAttribute.mirrors_compare (fun _ ↦ Der.Tag.isKnown_sequence) ?_ h
  intro e a ha _
  rwa [← NameAttribute.eq_toElement_of_ofElement? ha]

theorem readsAs_toElement {e : Element} {n : Name} (h : ofElement? e = some n) :
    ReadsAs ofElement? n.toElement n := by
  simp only [ofElement?, Option.bind_eq_bind, Option.pure_def, Option.bind_eq_some_iff,
    Option.some.injEq] at h
  obtain ⟨parts, hparts, rfl⟩ := h
  have hreads : ReadsAs (Der.sequenceOf relative?) (toElement ⟨parts⟩) parts := by
    refine Der.readsAs_sequenceOf (fun _ _ ↦ Der.Tag.isKnown_set) fun part hpart ↦ ?_
    obtain ⟨e, he⟩ := Der.exists_of_sequenceOf hparts hpart
    exact readsAs_relativeElement he
  intro hfits
  rw [ofElement?, hreads hfits]
  rfl

end Name

end SignedFirmware.X509
