import SignedFirmware.Cms.Attribute
import SignedFirmware.Proofs.Der.Sorting
import SignedFirmware.Proofs.Der.Value
import SignedFirmware.Proofs.List

/-!
# Sets and attributes read back

A set whose members are in order reads back as it was written, as reading sorts and sorting changes
nothing. So a signature over signed attributes covers the same bytes before and after.
-/

namespace SignedFirmware.Cms

open Der (Element Mirrors ReadsAs Transits)

/-! ## Sets -/

theorem readsAs_setOf? {α : Type} {decode : Der.Decoder α} {cmp : α → α → Ordering}
    {write : α → Element} {xs : List α} (hknown : ∀ x ∈ xs, Der.Tag.isKnown (write x).tag = true)
    (hread : ∀ x ∈ xs, ReadsAs decode (write x) x) (hsorted : Der.sortSet? cmp xs = some xs) :
    ReadsAs (setOf? decode cmp) (.ofElements Der.Tag.set (xs.map write)) xs := by
  intro hfits
  have hknown : ∀ e ∈ xs.map write, Der.Tag.isKnown e.tag = true :=
    List.forall_mem_map.2 hknown
  have hmembers : (xs.map write).mapM decode = some xs :=
    mapM_map_eq_some fun x hx ↦ hread x hx (hfits.of_mem hknown _ (List.mem_map_of_mem hx))
  rw [setOf?, if_pos (Der.ofElements_tag _ _), Der.elements?_content hfits hknown]
  simp only [Option.bind_eq_bind, Option.bind_some, hmembers, hsorted]

theorem setOf?_eq_some_iff {α : Type} {decode : Der.Decoder α} {cmp : α → α → Ordering}
    {e : Element} {xs : List α} :
    setOf? decode cmp e = some xs ↔
      e.tag = Der.Tag.set ∧ ∃ members values, Der.elements? e.content = some members ∧
        members.mapM decode = some values ∧ Der.sortSet? cmp values = some xs := by
  rw [setOf?, Option.ite_none_right_eq_some]
  simp only [Option.bind_eq_bind, Option.bind_eq_some_iff, exists_and_left]

theorem exists_of_setOf? {α : Type} {decode : Der.Decoder α} {cmp : α → α → Ordering}
    {e : Element} {xs : List α} (h : setOf? decode cmp e = some xs) {x : α} (hx : x ∈ xs) :
    ∃ member : Element, member.Fits ∧ decode member = some x := by
  obtain ⟨-, members, values, hmembers, hvalues, hsorted⟩ := setOf?_eq_some_iff.1 h
  have hmem : x ∈ values := (Der.perm_of_sortSet? hsorted).mem_iff.1 hx
  obtain ⟨member, hmember, hread⟩ := exists_of_mapM_eq_some hvalues hmem
  exact ⟨member, (Der.elements?_eq_some_iff.1 hmembers).1 member hmember, hread⟩

theorem readsAs_of_setOf? {α : Type} {decode : Der.Decoder α} {cmp : α → α → Ordering}
    {write : α → Element} {e : Element} {xs : List α} (hcmp : ∀ a b, Mirrors (cmp a b) (cmp b a))
    (hknown : ∀ x, Der.Tag.isKnown (write x).tag = true)
    (hread : ∀ e x, decode e = some x → ReadsAs decode (write x) x)
    (h : setOf? decode cmp e = some xs) :
    ReadsAs (setOf? decode cmp) (.ofElements Der.Tag.set (xs.map write)) xs := by
  obtain ⟨-, _, _, -, -, hsorted⟩ := setOf?_eq_some_iff.1 h
  refine readsAs_setOf? (fun x _ ↦ hknown x) ?_ (Der.sortSet?_of_sortSet? hcmp hsorted)
  intro x hx
  obtain ⟨member, -, hmember⟩ := exists_of_setOf? h hx
  exact hread member x hmember

/-- Sorting does not change how long a set is. -/
theorem length_content_of_setOf? {α : Type} {decode : Der.Decoder α} {cmp : α → α → Ordering}
    {write : α → Element} {e : Element} {xs : List α}
    (hlength : ∀ e x, decode e = some x → (write x).encode.length = e.encode.length)
    (h : setOf? decode cmp e = some xs) :
    (Element.ofElements Der.Tag.set (xs.map write)).content.length = e.content.length := by
  obtain ⟨-, members, values, hmembers, hvalues, hsorted⟩ := setOf?_eq_some_iff.1 h
  have hperm : (xs.flatMap fun x ↦ (write x).encode).Perm
      (values.flatMap fun x ↦ (write x).encode) := (Der.perm_of_sortSet? hsorted).flatMap_right _
  have hkept : (values.map fun x ↦ (write x).encode.length) =
      members.map fun member ↦ member.encode.length := map_eq_of_mapM_eq_some hlength hvalues
  rw [(Der.elements?_eq_some_iff.1 hmembers).2, Element.ofElements, List.flatMap_map,
    hperm.length_eq, List.length_flatMap, List.length_flatMap, hkept]

/-! ## Attributes -/

namespace Attribute

variable {a : Attribute} {as : List Attribute}

@[simp] theorem toElement_tag : a.toElement.tag = Der.Tag.sequence := rfl

@[simp] theorem valuesElement_tag : a.valuesElement.tag = Der.Tag.set := rfl

@[simp] theorem setElement_tag : (setElement as).tag = Der.Tag.set := rfl

theorem readsAs_toElement (htype : Oid.ofContent? a.type.content = some a.type)
    (hknown : ∀ v ∈ a.values, Der.Tag.isKnown v.tag = true)
    (hsorted : Der.sortSet? Der.comparePlain a.values = some a.values) :
    ReadsAs ofElement? a.toElement a := by
  refine Der.readsAs_sequence (by simp) fun hfits ↦ ?_
  have htype : Der.oid? (Der.ofOid a.type) = some a.type := Der.oid?_eq_some_iff.2 ⟨rfl, htype⟩
  have hvalues : Cms.setOf? some Der.comparePlain a.valuesElement = some a.values := by
    have hreads : ReadsAs (Cms.setOf? some Der.comparePlain)
        (.ofElements Der.Tag.set (a.values.map id)) a.values :=
      readsAs_setOf? hknown (fun v _ _ ↦ rfl) hsorted
    rw [List.map_id] at hreads
    exact hreads (hfits a.valuesElement (by simp))
  refine Der.Fields.bind_eq_some (Der.Fields.field_eq_some htype _) ?_
  exact Der.Fields.bind_eq_some (Der.Fields.field_eq_some hvalues _) rfl

theorem readsAs_setElement (hread : ∀ a ∈ as, ReadsAs ofElement? a.toElement a)
    (hsorted : Der.sortSet? compare as = some as) : ReadsAs setOf? (setElement as) as :=
  readsAs_setOf? (fun _ _ ↦ Der.Tag.isKnown_sequence) hread hsorted

/-- An attribute that was read is spelled with as many bytes as it was. -/
theorem length_encode_of_ofElement? {e : Element} (h : ofElement? e = some a) :
    a.toElement.encode.length = e.encode.length := by
  obtain ⟨es, rfl, -, hfields⟩ := Der.sequence_eq_some_iff.1 h
  obtain ⟨first, _, type, rfl, htype, hrest⟩ := Der.Fields.exists_of_field_bind hfields
  obtain ⟨second, _, values, rfl, hvalues, hend⟩ := Der.Fields.exists_of_field_bind hrest
  cases hend
  obtain ⟨rfl, -⟩ := Der.oid?_eq_some_iff.1 htype
  have hcontent : (valuesElement ⟨type, values⟩).content.length = second.content.length := by
    have hsame : (Element.ofElements Der.Tag.set (values.map id)).content.length =
        second.content.length :=
      length_content_of_setOf? (fun _ _ hx ↦ by rw [Option.some.inj hx, id]) hvalues
    rwa [List.map_id] at hsame
  have hencode : (valuesElement ⟨type, values⟩).encode.length = second.encode.length :=
    Element.length_encode_congr hcontent
  refine Element.length_encode_congr ?_
  simp only [toElement, Element.ofElements, List.flatMap_cons, List.flatMap_nil,
    List.length_append, hencode]

/-- So is a set of attributes that was read. -/
theorem length_encode_setElement_of_setOf? {e : Element} (h : setOf? e = some as) :
    (setElement as).encode.length = e.encode.length :=
  Element.length_encode_congr
    (length_content_of_setOf? (fun _ _ ↦ length_encode_of_ofElement?) h)

theorem toElement_inj {b : Attribute} (hlength : a.toElement.content.length ≤ Der.maxLength)
    (h : a.toElement = b.toElement) : a = b := by
  have hfields : [Der.ofOid a.type, a.valuesElement] = [Der.ofOid b.type, b.valuesElement] :=
    Der.eq_of_flatMap_encode_eq hlength (congrArg Element.content h)
  simp only [List.cons.injEq, and_true] at hfields
  obtain ⟨htype, hvalues⟩ := hfields
  have hshort : a.valuesElement.content.length ≤ Der.maxLength :=
    (Der.length_content_le_of_mem (by simp)).trans hlength
  have hvalues : a.values = b.values :=
    Der.eq_of_flatMap_encode_eq hshort (congrArg Element.content hvalues)
  have htype : a.type.content = b.type.content := congrArg Element.content htype
  obtain ⟨⟨_⟩, _⟩ := a
  obtain ⟨⟨_⟩, _⟩ := b
  rw [Attribute.mk.injEq, Oid.mk.injEq]
  exact ⟨htype, hvalues⟩

/-- The bytes that a signature over attributes covers tell which these are. -/
theorem setElement_encode_inj {bs : List Attribute}
    (has : (setElement as).encode.length ≤ Der.maxLength)
    (h : (setElement as).encode = (setElement bs).encode) : as = bs := by
  have hbs : (setElement bs).encode.length ≤ Der.maxLength := h ▸ has
  have has : (setElement as).content.length ≤ Der.maxLength :=
    (Element.length_content_lt _).le.trans has
  have hbs : (setElement bs).content.length ≤ Der.maxLength :=
    (Element.length_content_lt _).le.trans hbs
  refine eq_of_map_eq ?_ (Der.ofElements_encode_inj has hbs h)
  intro a ha b _ hab
  have hmem : a.toElement ∈ as.map toElement := List.mem_map_of_mem ha
  exact toElement_inj ((Der.length_content_le_of_mem hmem).trans has) hab

theorem mirrors_compare (a b : Attribute) : Mirrors (compare a b) (compare b a) :=
  (((Mirrors.compareHeader _ _).andThen (Mirrors.comparePlain _ _)).andThen
    (Mirrors.compareHeader _ _)).andThen (Mirrors.compareMembers Mirrors.comparePlain _ _)

theorem mirrors_compareSets (as bs : List Attribute) :
    Mirrors (compareSets as bs) (compareSets bs as) :=
  (Mirrors.compareHeader _ _).andThen (Mirrors.compareMembers mirrors_compare _ _)

theorem transits_compare (a b c : Attribute) : Transits (compare a b) (compare b c) (compare a c) :=
  (((Transits.compareHeader _ _ _).andThen (Transits.comparePlain _ _ _)).andThen
    (Transits.compareHeader _ _ _)).andThen (Transits.compareMembers Transits.comparePlain _ _ _)

theorem transits_compareSets (as bs cs : List Attribute) :
    Transits (compareSets as bs) (compareSets bs cs) (compareSets as cs) :=
  (Transits.compareHeader _ _ _).andThen (Transits.compareMembers transits_compare _ _ _)

end Attribute

end SignedFirmware.Cms
