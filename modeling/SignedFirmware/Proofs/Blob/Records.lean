import SignedFirmware.Proofs.Blob.Chain
import SignedFirmware.Proofs.Blob.Signers

/-!
# Records and the bytes that they were read from

A record of a list is a certificate that was written anew. Nothing of the blob is copied, so a
record has the bytes that stand in the blob if and only if these are canonical
(`records_keep_bytes_iff`). An example shows that a reader does not insist on it: with a single
extension that says that it is not critical, another encoding comes out, and the bytes that the
signature is checked over are not to be found in the input any more.
-/

namespace SignedFirmware.Blob

open Cms (SignedData)
open Der (Element)
open X509 (Certificate)

variable {data : Bytes}

/-- Bytes are a certificate that a blob holds, written anew. They are the bytes that it has there if
and only if these are canonical. -/
def Rewritten (data r : Bytes) : Prop :=
  ∃ (e : Element) (c : Certificate), Holds data e ∧ Certificate.ofElement? e = some c ∧
    r = c.encode ∧ (r = e.encode ↔ Certificate.IsCanonical e)

theorem rewritten_of_mem {d : SignedData} (h : read data = .ok d) {c : Certificate}
    (hc : c ∈ d.standardCertificates) : Rewritten data c.encode := by
  obtain ⟨e, hplace, hfits, hread⟩ := exists_holds_of_mem h hc
  exact ⟨e, c, hplace, hread, rfl, (Certificate.encode_eq_iff hfits hread).1⟩

/-- All records of a list of certificates of a blob are written anew. -/
theorem rewritten_of_listOf {d : SignedData} (h : read data = .ok d) {certs : List Certificate}
    (hcerts : ∀ c ∈ certs, c ∈ d.standardCertificates) {list : CertList}
    (hlist : listOf certs = .ok (some list)) : ∀ r ∈ list.records, Rewritten data r := by
  intro r hr
  obtain ⟨c, hc, rfl⟩ := exists_of_mem_records hlist hr
  exact rewritten_of_mem h (hcerts c hc)

/-- The lists of signers are made of their certificates, and the trusted one is a record of it. -/
theorem exists_of_signers {s : Signers} (h : signers data = .ok s) :
    ∃ d certs, read data = .ok d ∧ d.signerCertificates = .ok certs ∧
      listOf certs.reverse = .ok (some s.list) ∧ s.trusted ∈ s.list.records := by
  simp only [signers, Checked.bind_eq_ok_iff] at h
  obtain ⟨d, hd, certs, hcerts, found, hfound, h⟩ := h
  cases found with
  | none => cases h
  | some list =>
    dsimp only at h
    cases hlast : list.records.getLast? with
    | none =>
      rw [hlast] at h
      cases h
    | some trusted =>
      rw [hlast] at h
      cases h
      exact ⟨d, certs, hd, hcerts, hfound, List.mem_of_getLast? hlast⟩

theorem rewritten_of_chain {lists : ChainLists} (h : chain data = .ok lists) {list : CertList}
    (hlist : lists.chained = some list ∨ lists.unchained = some list) :
    ∀ r ∈ list.records, Rewritten data r := by
  simp only [chain, Checked.bind_eq_ok_iff, Checked.pure_eq_ok_iff] at h
  obtain ⟨d, hd, c, hc, chained, hchained, unchained, hunchained, rfl⟩ := h
  have hmem : ∀ x ∈ c.chained ++ c.unchained, x ∈ d.standardCertificates := fun x ↦
    (perm_of_chainOf hc).mem_iff.1
  obtain ⟨hfirst, hsecond⟩ := List.forall_mem_append.1 hmem
  rcases hlist with rfl | rfl
  · exact rewritten_of_listOf hd hfirst hchained
  · exact rewritten_of_listOf hd hsecond hunchained

/-- **Which records keep their bytes.** A certificate is read from the element that the input starts
with, and its encoding and the bytes that its signature covers are those of the input if and only if
this element is canonical. All records of lists, and the trusted certificate, are certificates at
their place in the blob that were written anew, so that for them the same holds. -/
theorem records_keep_bytes_iff (data : Bytes) :
    (∀ c, readCertificate data = .ok c →
      ∃ (e : Element) (rest : Bytes), Element.read? data = some (e, rest) ∧
        data = e.encode ++ rest ∧ (c.encode = e.encode ↔ Certificate.IsCanonical e) ∧
        ∃ tbs, e.members.head? = some tbs ∧
          (c.signedBytes = tbs.encode ↔ Certificate.IsCanonical e)) ∧
    (∀ s, signers data = .ok s →
      (∀ r ∈ s.list.records, Rewritten data r) ∧ Rewritten data s.trusted) ∧
    ∀ lists, chain data = .ok lists →
      ∀ list, lists.chained = some list ∨ lists.unchained = some list →
        ∀ r ∈ list.records, Rewritten data r := by
  refine ⟨fun c h ↦ ?_, fun s h ↦ ?_, fun lists h list ↦ rewritten_of_chain h⟩
  · rw [readCertificate, Checked.bind_eq_ok_iff] at h
    obtain ⟨-, -, h⟩ := h
    cases hdecode : Certificate.decode? data with
    | none =>
      rw [hdecode] at h
      cases h
    | some found =>
      rw [hdecode] at h
      cases h
      obtain ⟨⟨_, rest⟩, hfront, rfl⟩ := Option.map_eq_some_iff.1 hdecode
      obtain ⟨-, e, hfits, hdata, hread⟩ := Der.readFront?_eq_some_iff.1 hfront
      obtain ⟨hencode, hsigned⟩ := Certificate.encode_eq_iff hfits hread
      exact ⟨e, rest, Element.read?_eq_some_iff.2 ⟨hfits, hdata⟩, hdata, hencode, hsigned⟩
  · obtain ⟨d, certs, hd, hcerts, hlist, htrusted⟩ := exists_of_signers h
    have hmem : ∀ c ∈ certs.reverse, c ∈ d.standardCertificates := fun c hc ↦
      mem_standardCertificates_of_signer hcerts c (List.mem_reverse.1 hc)
    have hrecords := rewritten_of_listOf hd hmem hlist
    exact ⟨hrecords, hrecords _ htrusted⟩

/-- The element of a certificate in which every extension says whether it is critical. -/
def spelledOut (c : Certificate) : Element :=
  let extensions := (c.tbs.extensions.getD []).map fun x ↦
    if x.critical then x.toElement else x.spelledOut
  let field := Element.ofElements (Der.Tag.context 3) [.ofElements Der.Tag.sequence extensions]
  .ofElements Der.Tag.sequence
    [.ofElements Der.Tag.sequence (c.tbs.fields.dropLast ++ [field]),
      c.signatureAlgorithm.toElement, Der.ofBitString c.signature]

/-- The encoding of the sample root is canonical and kept. The lists of a blob with three
certificates have one, two and one of these in them, written anew. -/
theorem records_keep_bytes_iff_root :
    (readCertificate Trust.Chain.sampleRoot.encode = .ok Trust.Chain.sampleRoot ∧
      ∃ (e : Element) (rest : Bytes),
        Element.read? Trust.Chain.sampleRoot.encode = some (e, rest) ∧
        Certificate.IsCanonical e ∧ Trust.Chain.sampleRoot.encode = e.encode) ∧
    ∃ s lists chained unchained,
      signers cyclicData.encode = .ok s ∧ chain cyclicData.encode = .ok lists ∧
      lists.chained = some chained ∧ lists.unchained = some unchained ∧
      [s.list, chained, unchained].map (·.records.length) = [1, 2, 1] ∧
      Rewritten cyclicData.encode s.trusted ∧
      ∀ list ∈ [s.list, chained, unchained], ∀ r ∈ list.records, Rewritten cyclicData.encode r := by
  refine ⟨?_, ?_⟩
  · have hread : readCertificate Trust.Chain.sampleRoot.encode = .ok Trust.Chain.sampleRoot := by
      decide +kernel
    have hcanonical : Certificate.IsCanonical Trust.Chain.sampleRoot.toElement := by decide +kernel
    obtain ⟨hcert, -, -⟩ := records_keep_bytes_iff Trust.Chain.sampleRoot.encode
    obtain ⟨e, rest, hfront, -, hkept, -⟩ := hcert _ hread
    have hwhole : Element.read? Trust.Chain.sampleRoot.encode =
        some (Trust.Chain.sampleRoot.toElement, []) := by decide +kernel
    obtain ⟨rfl, rfl⟩ := Prod.mk.inj (Option.some.inj (hwhole.symm.trans hfront))
    exact ⟨hread, _, _, hfront, hcanonical, hkept.2 hcanonical⟩
  · have hsigners : (signers cyclicData.encode).map (·.list.records.length) = .ok 1 := by
      decide +kernel
    have hlists : (chain cyclicData.encode).map (fun lists ↦
        (lists.chained.map (·.records.length), lists.unchained.map (·.records.length))) =
          .ok (some 2, some 1) := by
      decide +kernel
    obtain ⟨s, hs, hone⟩ := Checked.map_eq_ok_iff.1 hsigners
    obtain ⟨lists, h, hlengths⟩ := Checked.map_eq_ok_iff.1 hlists
    obtain ⟨hchained, hunchained⟩ := Prod.mk.inj hlengths
    obtain ⟨chained, hfirst, htwo⟩ := Option.map_eq_some_iff.1 hchained
    obtain ⟨unchained, hsecond, hlast⟩ := Option.map_eq_some_iff.1 hunchained
    obtain ⟨-, hall, hboth⟩ := records_keep_bytes_iff cyclicData.encode
    obtain ⟨hrecords, htrusted⟩ := hall s hs
    refine ⟨s, lists, chained, unchained, hs, h, hfirst, hsecond, ?_, htrusted, ?_⟩
    · simp [hone, htwo, hlast]
    · rw [List.forall_mem_cons, List.forall_mem_cons, List.forall_mem_singleton]
      exact ⟨hrecords, hboth lists h chained (.inl hfirst), hboth lists h unchained (.inr hsecond)⟩

/-- With criticalities spelled out, the sample root is read as before. But neither its encoding nor
the bytes that its signature covers are those of the input. -/
theorem readCertificate_spelledOut :
    readCertificate (spelledOut Trust.Chain.sampleRoot).encode = .ok Trust.Chain.sampleRoot ∧
      Element.read? (spelledOut Trust.Chain.sampleRoot).encode =
        some (spelledOut Trust.Chain.sampleRoot, []) ∧
      Trust.Chain.sampleRoot.encode ≠ (spelledOut Trust.Chain.sampleRoot).encode ∧
      ¬Trust.Chain.sampleRoot.signedBytes <:+: (spelledOut Trust.Chain.sampleRoot).encode := by
  decide +kernel

end SignedFirmware.Blob
