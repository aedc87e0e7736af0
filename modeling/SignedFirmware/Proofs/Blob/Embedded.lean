import SignedFirmware.Blob.Signers
import SignedFirmware.Proofs.Blob.Read
import SignedFirmware.Proofs.CertList
import SignedFirmware.Proofs.Trust.Verify
import SignedFirmware.Proofs.X509.Canonical

/-!
# The certificates that a blob holds

Every certificate that comes out of a blob was read from an element at one place of it: in the set
behind the content of the signed data (`Holds`). It is written with no more bytes than that element
has, so that a list can always be made of such certificates, and with the same bytes if and only if
the element is canonical.
-/

namespace SignedFirmware.Blob

open Cms (CertificateChoice SignedData)
open Der (Element)
open X509 (Certificate)

/-! ## Where certificates stand -/

/-- What is inside the set of certificates of some signed data. -/
def HoldsIn (inner e : Element) : Prop :=
  ∃ certs, inner.members[3]? = some certs ∧ certs.tag = Der.Tag.context 0 ∧ e ∈ certs.members

/-- An element stands where a blob has its certificates. The blob is either signed data or a wrapped
form of it. -/
def Holds (data : Bytes) (e : Element) : Prop :=
  ∃ inner : Element, HoldsIn inner e ∧ (data = inner.encode ∨
    ∃ rest, data = Envelope.header inner.encode.length ++ inner.encode ++ rest)

theorem Holds.encode_infix {data : Bytes} {e : Element} (h : Holds data e) :
    e.encode <:+: data := by
  obtain ⟨inner, ⟨certs, hcerts, -, he⟩, hdata⟩ := h
  have hinner : e.encode <:+: inner.encode :=
    (Element.encode_infix_of_mem_members he).trans
      (Element.encode_infix_of_mem_members (List.mem_of_getElem? hcerts))
  rcases hdata with rfl | ⟨rest, rfl⟩
  · exact hinner
  · exact hinner.trans (List.infix_append _ _ _)

/-! ## Where certificates come from -/

theorem mem_standardCertificates {d : SignedData} {c : Certificate} :
    c ∈ d.standardCertificates ↔
      ∃ cs, d.certificates = some cs ∧ CertificateChoice.certificate c ∈ cs := by
  rw [SignedData.standardCertificates, List.mem_filterMap]
  constructor
  · rintro ⟨choice, hmem, hchoice⟩
    cases hcerts : d.certificates with
    | none =>
      rw [hcerts] at hmem
      cases hmem
    | some cs =>
      rw [hcerts] at hmem
      cases choice with
      | certificate c' =>
        cases hchoice
        exact ⟨cs, rfl, hmem⟩
      | other _ => cases hchoice
  · rintro ⟨cs, hcerts, hmem⟩
    exact ⟨_, by rwa [hcerts], rfl⟩

theorem certificate_of_choice {e : Element} {c : Certificate}
    (h : CertificateChoice.ofElement? e = some (.certificate c)) :
    Certificate.ofElement? e = some c := by
  rw [CertificateChoice.ofElement?] at h
  split at h
  · split at h
    · obtain ⟨_, -, hother⟩ := Option.map_eq_some_iff.1 h
      cases hother
    · cases h
  · obtain ⟨c', hread, hc⟩ := Option.map_eq_some_iff.1 h
    cases hc
    exact hread

theorem exists_holdsIn_of_mem {inner : Element} {d : SignedData}
    (h : SignedData.ofElement? inner = some d) {c : Certificate} (hc : c ∈ d.standardCertificates) :
    ∃ e : Element, HoldsIn inner e ∧ e.Fits ∧ Certificate.ofElement? e = some c := by
  obtain ⟨es, rfl, hfits, hfields⟩ := Der.sequence_eq_some_iff.1 h
  obtain ⟨version, _, _, rfl, -, hrest⟩ := Der.Fields.exists_of_field_bind hfields
  obtain ⟨algorithms, _, _, rfl, -, hrest⟩ := Der.Fields.exists_of_field_bind hrest
  obtain ⟨content, _, _, rfl, -, hrest⟩ := Der.Fields.exists_of_field_bind hrest
  -- three fields stand in front of the set of certificates
  obtain ⟨found, left, hfound, hrest⟩ := Der.Fields.bind_eq_some_iff.1 hrest
  obtain ⟨_, _, -, hrest⟩ := Der.Fields.bind_eq_some_iff.1 hrest
  obtain ⟨_, _, -, hend⟩ := Der.Fields.bind_eq_some_iff.1 hrest
  cases hend
  obtain ⟨cs, hcs, hmem⟩ := mem_standardCertificates.1 hc
  obtain rfl : found = some cs := hcs
  rcases Der.Fields.implicit_eq_some_iff.1 hfound with
    ⟨-, hnone⟩ | ⟨certs, _, hcontext, hform, hset, hcs⟩
  · cases hnone
  · cases hcs
    obtain ⟨rfl, hclass, hnumber⟩ := Der.Fields.context_zero_eq_some hcontext
    obtain ⟨-, members, values, hmembers, hvalues, hsorted⟩ := Cms.setOf?_eq_some_iff.1 hset
    have hvalue : CertificateChoice.certificate c ∈ values :=
      (Der.perm_of_sortSet? hsorted).mem_iff.1 hmem
    obtain ⟨e, he, hread⟩ := exists_of_mapM_eq_some hvalues hvalue
    have hplace : HoldsIn (.ofElements Der.Tag.sequence
        (version :: algorithms :: content :: certs :: left)) e := by
      refine ⟨certs, ?_, Der.Tag.eq_context_zero hclass hnumber hform, ?_⟩
      · rw [Element.members_ofElements hfits]
        rfl
      · rw [Element.members, hmembers]
        exact he
    exact ⟨e, hplace, (Der.elements?_eq_some_iff.1 hmembers).1 e he, certificate_of_choice hread⟩

/-! ## What is read of a blob -/

theorem length_le_of_read {data : Bytes} {d : SignedData} (h : read data = .ok d) :
    data.length ≤ Der.maxLength := by
  obtain ⟨-, -, envelope, hnormal, info, rest, hread, -⟩ := read_eq_ok_iff_opens.1 h
  cases hwrapped : Envelope.isWrapped data with
  | true =>
    rw [Envelope.normalize_of_isWrapped hwrapped] at hnormal
    cases hnormal
    exact (Der.readFront?_eq_some_iff.1 hread).1
  | false =>
    have hsize := ((Envelope.normalize_of_bare hwrapped).1 hnormal).2.1
    exact hsize.trans (by decide)

/-- The certificates of a blob were read from what it holds. -/
theorem exists_holds_of_mem {data : Bytes} {d : SignedData} (h : read data = .ok d)
    {c : Certificate} (hc : c ∈ d.standardCertificates) :
    ∃ e : Element, Holds data e ∧ e.Fits ∧ Certificate.ofElement? e = some c := by
  rcases (read_eq_ok_iff (length_le_of_read h)).1 h with
    ⟨bare, rest, -, -, rfl, hreads⟩ | ⟨-, -, hreads⟩
  all_goals
    obtain ⟨-, inner, -, rfl, hinner⟩ := reads_iff.1 hreads
    obtain ⟨e, hplace, he⟩ := exists_holdsIn_of_mem hinner hc
  · exact ⟨e, ⟨inner, hplace, .inr ⟨rest, rfl⟩⟩, he⟩
  · exact ⟨e, ⟨inner, hplace, .inl rfl⟩, he⟩

theorem length_encode_lt_of_mem {data : Bytes} {d : SignedData} (h : read data = .ok d)
    {c : Certificate} (hc : c ∈ d.standardCertificates) :
    c.encode.length < CertList.recordLimit := by
  obtain ⟨e, hplace, -, hread⟩ := exists_holds_of_mem h hc
  have hwritten : c.encode.length ≤ e.encode.length :=
    Element.length_encode_mono (Certificate.length_content_le_of_ofElement? hread)
  have hdata : e.encode.length ≤ data.length := hplace.encode_infix.length_le
  have hlimit : Der.maxLength < CertList.recordLimit := by decide
  exact ((hwritten.trans hdata).trans (length_le_of_read h)).trans_lt hlimit

/-! ## Lists -/

theorem listOf_eq_ok_iff {certs : List Certificate} {list : Option CertList} :
    listOf certs = .ok list ↔ CertList.Short (certs.map Certificate.encode) ∧
      list = if certs = [] then none
        else some (CertList.ofRecords (certs.map Certificate.encode)) := by
  rw [listOf, Checked.mapError_eq_ok_iff, CertList.ofDer_eq_ok_iff]
  simp only [List.map_eq_nil_iff]

/-- The certificates of a blob are short enough for a list. -/
theorem short_encode {data : Bytes} {d : SignedData} (h : read data = .ok d)
    {certs : List Certificate} (hcerts : ∀ c ∈ certs, c ∈ d.standardCertificates) :
    CertList.Short (certs.map Certificate.encode) := by
  intro r hr
  obtain ⟨c, hc, rfl⟩ := List.mem_map.1 hr
  exact length_encode_lt_of_mem h (hcerts c hc)

theorem exists_of_mem_records {certs : List Certificate} {list : CertList}
    (h : listOf certs = .ok (some list)) {r : Bytes} (hr : r ∈ list.records) :
    ∃ c ∈ certs, r = c.encode := by
  obtain ⟨hshort, hlist⟩ := listOf_eq_ok_iff.1 h
  split at hlist
  · cases hlist
  · cases hlist
    rw [CertList.records_ofRecords hshort, List.mem_map] at hr
    obtain ⟨c, hc, rfl⟩ := hr
    exact ⟨c, hc, rfl⟩

end SignedFirmware.Blob
