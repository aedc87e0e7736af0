import SignedFirmware.Proofs.Der.Sorting
import SignedFirmware.Proofs.Der.Value
import SignedFirmware.X509.AlgorithmId

/-!
# Algorithm identifiers read back
-/

namespace SignedFirmware.X509.AlgorithmId

open Der (Element Mirrors ReadsAs Transits)

variable {a : AlgorithmId}

@[simp] theorem toElement_tag : a.toElement.tag = Der.Tag.sequence := rfl

theorem readsAs_toElement (hoid : Oid.ofContent? a.oid.content = some a.oid)
    (hparameters : ∀ p, a.parameters = some p → Der.Tag.isKnown p.tag = true) :
    ReadsAs ofElement? a.toElement a := by
  obtain ⟨oid, parameters⟩ := a
  refine Der.readsAs_sequence ?_ fun _ ↦ ?_
  · cases parameters with
    | none => simp
    | some p => simpa using hparameters p rfl
  · have hoid : Der.oid? (Der.ofOid oid) = some oid := Der.oid?_eq_some_iff.2 ⟨rfl, hoid⟩
    refine Der.Fields.bind_eq_some (Der.Fields.field_eq_some hoid _) ?_
    cases parameters with
    | none => rfl
    | some p => exact Der.Fields.bind_eq_some (Der.Fields.optional_cons_of_accepts rfl some []) rfl

theorem eq_toElement_of_ofElement? {e : Element} (h : ofElement? e = some a) :
    e = a.toElement := by
  obtain ⟨es, rfl, -, hfields⟩ := Der.sequence_eq_some_iff.1 h
  obtain ⟨o, mid, oid, rfl, hoid, hrest⟩ := Der.Fields.exists_of_field_bind hfields
  obtain ⟨rfl, -⟩ := Der.oid?_eq_some_iff.1 hoid
  obtain ⟨parameters, rest, hparameters, hend⟩ := Der.Fields.bind_eq_some_iff.1 hrest
  cases hend
  cases mid with
  | nil =>
    cases hparameters
    rfl
  | cons p more =>
    rw [Der.Fields.optional_cons_of_accepts rfl] at hparameters
    cases hparameters
    rfl

theorem mirrors_compare (a b : AlgorithmId) : Mirrors (compare a b) (compare b a) :=
  ((Mirrors.compareHeader _ _).andThen (Mirrors.comparePlain _ _)).andThen
    (Mirrors.compareOptional Mirrors.comparePlain _ _)

theorem transits_compare (a b c : AlgorithmId) :
    Transits (compare a b) (compare b c) (compare a c) :=
  ((Transits.compareHeader _ _ _).andThen (Transits.comparePlain _ _ _)).andThen
    (Transits.compareOptional Transits.comparePlain _ _ _)

end SignedFirmware.X509.AlgorithmId
