import SignedFirmware.Der.SetOf
import SignedFirmware.Proofs.Der.Fields

/-!
# The elements inside an element

An element that was read can be looked into. Its members are told by it, as long as it can be
spelled, and what spells a member stands somewhere in what spells the element. So the spelling of a
sequence is settled member by member: values that were read are written as they were if and only if
each of them is.
-/

namespace SignedFirmware.Der

namespace Element

/-- The elements inside an element. -/
def members (e : Element) : List Element := (elements? e.content).getD []

/-- The elements inside stand in the order of their encodings, as those of a set have to. -/
def IsOrdered (e : Element) : Prop :=
  e.members.IsChain fun a b ↦ compareBytes a.encode b.encode = .lt

instance (e : Element) : Decidable e.IsOrdered := by unfold IsOrdered; infer_instance

variable {tag : Tag} {es fs : List Element}

theorem members_ofElements (h : ∀ e ∈ es, e.Fits) : (ofElements tag es).members = es := by
  have hread : elements? (ofElements tag es).content = some es :=
    elements?_eq_some_iff.2 ⟨h, rfl⟩
  rw [members, hread, Option.getD_some]

theorem encode_infix_of_mem_members {e x : Element} (h : x ∈ e.members) :
    x.encode <:+: e.encode := by
  rw [members] at h
  cases hread : elements? e.content with
  | none =>
    rw [hread] at h
    cases h
  | some es =>
    rw [hread] at h
    have hcontent : x.encode <:+: e.content := by
      rw [(elements?_eq_some_iff.1 hread).2, List.flatMap_def]
      exact List.infix_of_mem_flatten (List.mem_map_of_mem h)
    have hwhole : e.content <:+ e.encode :=
      (List.suffix_append _ _).trans (List.suffix_cons _ _)
    exact hcontent.trans hwhole.isInfix

theorem ofElements_inj (h : (ofElements tag es).content.length ≤ maxLength) :
    ofElements tag fs = ofElements tag es ↔ fs = es := by
  refine ⟨fun hsame ↦ ?_, fun hsame ↦ hsame ▸ rfl⟩
  exact (eq_of_flatMap_encode_eq h (congrArg content hsame).symm).symm

end Element

/-- Values in a row are written as they were if and only if each of them is. -/
theorem ofElements_eq_iff_of_sequenceOf {α : Type} {decode : Decoder α} {write : α → Element}
    {p : Element → Prop}
    (hwrite : ∀ e : Element, e.Fits → ∀ a, decode e = some a → (write a = e ↔ p e)) {e : Element}
    {as : List α} (hfits : e.Fits) (h : sequenceOf decode e = some as) :
    Element.ofElements Tag.sequence (as.map write) = e ↔ ∀ x ∈ e.members, p x := by
  obtain ⟨es, rfl, hes, hread⟩ := sequenceOf_eq_some_iff.1 h
  rw [Element.ofElements_inj hfits.short, Element.members_ofElements hes]
  exact map_eq_iff_of_mapM_eq_some (fun x hx ↦ hwrite x (hes x hx)) hread

end SignedFirmware.Der
