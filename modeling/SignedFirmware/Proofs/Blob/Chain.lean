import SignedFirmware.Proofs.Blob.Embedded
import SignedFirmware.Proofs.Blob.Size
import SignedFirmware.Proofs.Trust.Chain

/-!
# The chain that is taken out of a blob

A climb goes from a certificate to the first one in the pool that is named as its issuer, takes that
out of the pool and goes on from there. `Climbs` is the same as a relation, with one constructor for
each way in which a step can go, and what a climb keeps is shown by induction on it: nothing is lost
or made twice, what is left stands in its old order, and the climb stops only where it has to.
Names may repeat and may form cycles, as a pool with one certificate less is left after each step.
-/

namespace SignedFirmware.Blob

open Cms (SignedData SignerId SignerInfo)
open X509 (Certificate)

/-! ## Climbs -/

/-- A climb from a certificate finds the issuers above it and leaves the rest of the pool. -/
inductive Climbs : Certificate → List Certificate → List Certificate → List Certificate → Prop where
  | top {cert : Certificate} {pool : List Certificate} (hself : cert.IsSelfIssued) :
    Climbs cert pool [] pool
  | alone {cert : Certificate} {pool : List Certificate} (hself : ¬cert.IsSelfIssued)
    (hnone : pool.find? (issues cert) = none) : Climbs cert pool [] pool
  | step {cert issuer : Certificate} {pool above rest : List Certificate}
    (hself : ¬cert.IsSelfIssued) (hfound : pool.find? (issues cert) = some issuer)
    (hrest : Climbs issuer (pool.erase issuer) above rest) : Climbs cert pool (issuer :: above) rest

variable {cert : Certificate} {pool above rest : List Certificate}

theorem climbs_climb (cert : Certificate) (pool : List Certificate) :
    Climbs cert pool (climb cert pool).1 (climb cert pool).2 := by
  fun_induction climb cert pool with
  | case1 cert pool hself => exact .top hself
  | case2 cert pool hself hnone => exact .alone hself hnone
  | case3 cert pool hself issuer hfound above rest hclimb ih =>
    rw [hclimb, eraseP_eq_erase_of_find?_eq_some hfound] at ih
    exact .step hself hfound ih

theorem Climbs.climb_eq (h : Climbs cert pool above rest) : climb cert pool = (above, rest) := by
  induction h with
  | top hself => rw [climb, if_pos hself]
  | alone hself hnone =>
    rw [climb, if_neg hself]
    split
    · rfl
    · rename_i found hfound
      rw [hnone] at hfound
      cases hfound
  | step hself hfound _ ih =>
    rw [climb, if_neg hself]
    split
    · rename_i hnone
      rw [hfound] at hnone
      cases hnone
    · rename_i found hfound'
      obtain rfl := Option.some.inj (hfound.symm.trans hfound')
      rw [eraseP_eq_erase_of_find?_eq_some hfound, ih]

theorem climb_eq_iff : climb cert pool = (above, rest) ↔ Climbs cert pool above rest := by
  refine ⟨fun h ↦ ?_, Climbs.climb_eq⟩
  have hclimbs := climbs_climb cert pool
  rwa [h] at hclimbs

namespace Climbs

theorem perm (h : Climbs cert pool above rest) : (above ++ rest).Perm pool := by
  induction h with
  | top _ => exact .refl _
  | alone _ _ => exact .refl _
  | step _ hfound _ ih =>
    have hmem := List.mem_of_find?_eq_some hfound
    exact (ih.cons _).trans (List.perm_cons_erase hmem).symm

theorem rest_sublist (h : Climbs cert pool above rest) : rest.Sublist pool := by
  induction h with
  | top _ => exact List.Sublist.refl _
  | alone _ _ => exact List.Sublist.refl _
  | step _ _ _ ih => exact ih.trans List.erase_sublist

/-- Each certificate is followed by the first of its issuers that was not taken out before. -/
theorem next (h : Climbs cert pool above rest) {i : Nat} {below issuer : Certificate}
    (hbelow : (cert :: above)[i]? = some below) (hissuer : (cert :: above)[i + 1]? = some issuer) :
    (pool.diff (above.take i)).find? (issues below) = some issuer := by
  induction h generalizing i with
  | top _ => cases hissuer
  | alone _ _ => cases hissuer
  | step _ hfound _ ih =>
    cases i with
    | zero =>
      obtain rfl := Option.some.inj hbelow
      obtain rfl := Option.some.inj hissuer
      exact hfound
    | succ i =>
      rw [List.take_succ_cons, List.diff_cons]
      exact ih hbelow hissuer

theorem not_isSelfIssued (h : Climbs cert pool above rest) :
    ∀ c ∈ (cert :: above).dropLast, ¬c.IsSelfIssued := by
  induction h with
  | top _ => simp
  | alone _ _ => simp
  | step hself _ _ ih =>
    rw [List.dropLast_cons_cons, List.forall_mem_cons]
    exact ⟨hself, ih⟩

/-- A climb stops only at the top, or where no issuer is left. -/
theorem last (h : Climbs cert pool above rest) :
    ∃ c, (cert :: above).getLast? = some c ∧
      (c.IsSelfIssued ∨ ∀ r ∈ rest, r.subject ≠ c.issuer) := by
  induction h with
  | top hself => exact ⟨_, rfl, .inl hself⟩
  | alone _ hnone =>
    refine ⟨_, rfl, .inr fun r hr hname ↦ ?_⟩
    exact List.find?_eq_none.1 hnone r hr (decide_eq_true hname)
  | step _ _ _ ih =>
    rw [List.getLast?_cons_cons]
    exact ih

end Climbs

/-! ## Chains -/

/-- Certificates that were taken apart into the chain of a signer and what is left. -/
structure Extraction (pool : List Certificate) (id : SignerId) (path rest : List Certificate) :
    Prop where
  /-- The chain starts with the first certificate that the signer names. -/
  first : ∃ c, path.head? = some c ∧ pool.find? (fun c ↦ decide (id.Matches c)) = some c
  /-- Each certificate is followed by the first one with the name of its issuer that is not in the
  chain so far. -/
  next : ∀ i below issuer, path[i]? = some below → path[i + 1]? = some issuer →
    (pool.diff (path.take (i + 1))).find? (fun c ↦ decide (c.subject = below.issuer)) = some issuer
  /-- No certificate but the last one is self-issued. -/
  notSelfIssued : ∀ c ∈ path.dropLast, ¬c.IsSelfIssued
  /-- The chain ends where it has to. -/
  last : ∃ c, path.getLast? = some c ∧ (c.IsSelfIssued ∨ ∀ r ∈ rest, r.subject ≠ c.issuer)
  /-- No certificate is lost or occurs more often than before. -/
  perm : (path ++ rest).Perm pool
  /-- What is left stands in the order in which it was. -/
  order : rest.Sublist pool

theorem Climbs.extraction {id : SignerId}
    (hcert : pool.find? (fun c ↦ decide (id.Matches c)) = some cert)
    (h : Climbs cert (pool.erase cert) above rest) : Extraction pool id (cert :: above) rest where
  first := ⟨cert, rfl, hcert⟩
  next i below issuer hbelow hissuer := by
    rw [List.take_succ_cons, List.diff_cons]
    exact h.next hbelow hissuer
  notSelfIssued := h.not_isSelfIssued
  last := h.last
  perm := (h.perm.cons cert).trans (List.perm_cons_erase (List.mem_of_find?_eq_some hcert)).symm
  order := h.rest_sublist.trans List.erase_sublist

theorem chainOf_eq_ok_iff {d : SignedData} {c : Chain} :
    chainOf d = .ok c ↔ ∃ signer cert above rest, d.signers = [signer] ∧
      Trust.certificateOf? d signer = some cert ∧
      Climbs cert (d.standardCertificates.erase cert) above rest ∧ c = ⟨cert :: above, rest⟩ := by
  simp only [chainOf, Checked.bind_eq_ok_iff, singleSigner_eq_ok_iff,
    Trust.signerCertificate_eq_ok_iff, Checked.pure_eq_ok_iff]
  refine exists_congr fun signer ↦ ?_
  constructor
  · rintro ⟨hsigner, cert, hcert, rfl⟩
    have hclimbs := climbs_climb cert (d.standardCertificates.erase cert)
    rw [eraseP_eq_erase_of_find?_eq_some hcert]
    exact ⟨cert, _, _, hsigner, hcert, hclimbs, rfl⟩
  · rintro ⟨cert, above, rest, hsigner, hcert, hclimbs, rfl⟩
    refine ⟨hsigner, cert, hcert, ?_⟩
    rw [eraseP_eq_erase_of_find?_eq_some hcert, hclimbs.climb_eq]

theorem perm_of_chainOf {d : SignedData} {c : Chain} (h : chainOf d = .ok c) :
    (c.chained ++ c.unchained).Perm d.standardCertificates := by
  obtain ⟨signer, cert, above, rest, -, hcert, hclimbs, rfl⟩ := chainOf_eq_ok_iff.1 h
  exact (hclimbs.extraction hcert).perm

/-- The certificates of a chain are short enough for the records of a list. -/
theorem short_of_chainOf {data : Bytes} {d : SignedData} {c : Chain} (hd : read data = .ok d)
    (hc : chainOf d = .ok c) {certs : List Certificate}
    (hcerts : certs.Sublist (c.chained ++ c.unchained)) :
    CertList.Short (certs.map Certificate.encode) := by
  refine short_encode hd fun x hx ↦ ?_
  exact (perm_of_chainOf hc).mem_iff.1 (hcerts.subset hx)

/-- Lists can be made of the two parts of any chain. -/
theorem chain_eq_ok_iff {data : Bytes} {lists : ChainLists} :
    chain data = .ok lists ↔ ∃ d c, read data = .ok d ∧ chainOf d = .ok c ∧
      lists =
        { chained := if c.chained = [] then none
            else some (CertList.ofRecords (c.chained.map Certificate.encode))
          unchained := if c.unchained = [] then none
            else some (CertList.ofRecords (c.unchained.map Certificate.encode)) } := by
  simp only [chain, Checked.bind_eq_ok_iff, Checked.pure_eq_ok_iff]
  refine exists_congr fun d ↦ ?_
  have hlist : ∀ c, read data = .ok d → chainOf d = .ok c → ∀ certs,
      certs.Sublist (c.chained ++ c.unchained) →
        listOf certs = .ok (if certs = [] then none
          else some (CertList.ofRecords (certs.map Certificate.encode))) :=
    fun _ hd hc _ hcerts ↦ listOf_eq_ok_iff.2 ⟨short_of_chainOf hd hc hcerts, rfl⟩
  constructor
  · rintro ⟨hd, c, hc, chained, hchained, unchained, hunchained, rfl⟩
    rw [hlist c hd hc _ (List.sublist_append_left _ _)] at hchained
    rw [hlist c hd hc _ (List.sublist_append_right _ _)] at hunchained
    cases hchained
    cases hunchained
    exact ⟨c, hd, hc, rfl⟩
  · rintro ⟨c, hd, hc, rfl⟩
    exact ⟨hd, c, hc, _, hlist c hd hc _ (List.sublist_append_left _ _), _,
      hlist c hd hc _ (List.sublist_append_right _ _), rfl⟩

/-- **Extraction partitions the certificates.** Lists are made if and only if there is a single
signer who names a certificate of the blob. They hold the chain of that signer and all other
certificates, and the second one is absent if there are no others. The climb ends for any pool, with
no more steps than there are certificates in it. -/
theorem chain_partitions_certificates (data : Bytes) :
    ((∃ lists, chain data = .ok lists) ↔
      ∃ d signer, read data = .ok d ∧ d.signers = [signer] ∧
        ∃ c ∈ d.standardCertificates, signer.id.Matches c) ∧
    (∀ lists, chain data = .ok lists →
      ∃ d signer path rest, read data = .ok d ∧ d.signers = [signer] ∧
        Extraction d.standardCertificates signer.id path rest ∧
        lists.chained.map CertList.records = some (path.map Certificate.encode) ∧
        lists.unchained.map CertList.records =
          if rest = [] then none else some (rest.map Certificate.encode)) ∧
    ∀ cert pool, Climbs cert pool (climb cert pool).1 (climb cert pool).2 ∧
      (climb cert pool).1.length ≤ pool.length := by
  refine ⟨?_, fun lists h ↦ ?_, fun cert pool ↦ ?_⟩
  · constructor
    · rintro ⟨lists, h⟩
      obtain ⟨d, c, hd, hc, -⟩ := chain_eq_ok_iff.1 h
      obtain ⟨signer, cert, -, -, hsigner, hcert, -⟩ := chainOf_eq_ok_iff.1 hc
      rw [Trust.certificateOf?] at hcert
      have hmatches := List.find?_some hcert
      exact ⟨d, signer, hd, hsigner, cert, List.mem_of_find?_eq_some hcert,
        of_decide_eq_true hmatches⟩
    · rintro ⟨d, signer, hd, hsigner, c, hc, hmatches⟩
      obtain ⟨cert, hcert⟩ : ∃ cert, Trust.certificateOf? d signer = some cert := by
        rw [← Option.isSome_iff_exists, Trust.certificateOf?, List.find?_isSome]
        exact ⟨c, hc, decide_eq_true hmatches⟩
      have hclimbs := climbs_climb cert (d.standardCertificates.erase cert)
      have hchain := chainOf_eq_ok_iff.2 ⟨signer, cert, _, _, hsigner, hcert, hclimbs, rfl⟩
      exact ⟨_, chain_eq_ok_iff.2 ⟨d, _, hd, hchain, rfl⟩⟩
  · obtain ⟨d, c, hd, hc, rfl⟩ := chain_eq_ok_iff.1 h
    -- both lists are parts of the pool, and all certificates of a blob are short enough for records
    have hrecords : ∀ certs : List Certificate, certs.Sublist (c.chained ++ c.unchained) →
        (CertList.ofRecords (certs.map Certificate.encode)).records =
          certs.map Certificate.encode :=
      fun _ hcerts ↦ CertList.records_ofRecords (short_of_chainOf hd hc hcerts)
    obtain ⟨signer, cert, above, rest, hsigner, hcert, hclimbs, rfl⟩ := chainOf_eq_ok_iff.1 hc
    refine ⟨d, signer, cert :: above, rest, hd, hsigner, hclimbs.extraction hcert, ?_, ?_⟩
    · have hne : cert :: above ≠ [] := List.cons_ne_nil _ _
      dsimp only
      rw [if_neg hne, Option.map_some, hrecords _ (List.sublist_append_left _ _)]
    · dsimp only
      split
      · rfl
      · rw [Option.map_some, hrecords _ (List.sublist_append_right _ _)]
  · have hclimbs := climbs_climb cert pool
    refine ⟨hclimbs, ?_⟩
    rw [← hclimbs.perm.length_eq, List.length_append]
    exact Nat.le_add_right _ _

/-- A small certificate with a serial number and names. -/
def namedCertificate (serial : UInt8) (issuer subject : Bytes) : Certificate :=
  { smallCertificate with
    tbs :=
      { smallCertificate.tbs with
        serial := [serial]
        issuer := Trust.Chain.sampleName issuer
        subject := Trust.Chain.sampleName subject } }

/-- Signed data with three certificates, of which two name each other as their issuers. One of these
is that of the signer. -/
def cyclicData : SignedData :=
  { sampleData with
    certificates := some [
      .certificate (namedCertificate 1 [0x42] [0x41]),
      .certificate (namedCertificate 2 [0x41] [0x42]),
      .certificate (namedCertificate 3 [0x41] [0x43])]
    signers := [
      { version := 1
        id := .issuerAndSerial (Trust.Chain.sampleName [0x42]) [1]
        digestAlgorithm := smallCertificate.signatureAlgorithm
        signedAttributes := none
        signatureAlgorithm := smallCertificate.signatureAlgorithm
        signature := []
        unsignedAttributes := none }] }

/-- The cycle is the chain, and the third certificate is left. -/
theorem chain_partitions_certificates_cycle :
    ∃ lists, chain cyclicData.encode = .ok lists ∧
      lists.chained.map CertList.records = some [
        (namedCertificate 1 [0x42] [0x41]).encode, (namedCertificate 2 [0x41] [0x42]).encode] ∧
      ∃ path rest,
        Extraction cyclicData.standardCertificates
          (.issuerAndSerial (Trust.Chain.sampleName [0x42]) [1]) path rest ∧
        lists.chained.map CertList.records = some (path.map Certificate.encode) := by
  have hread : read cyclicData.encode = .ok cyclicData := by decide +kernel
  obtain ⟨hok, hlists, -⟩ := chain_partitions_certificates cyclicData.encode
  obtain ⟨lists, h⟩ := hok.2 ⟨cyclicData, _, hread, rfl, by decide +kernel⟩
  have hchained : (chain cyclicData.encode).map (·.chained.map CertList.records) = .ok (some [
      (namedCertificate 1 [0x42] [0x41]).encode, (namedCertificate 2 [0x41] [0x42]).encode]) := by
    decide +kernel
  rw [h] at hchained
  obtain ⟨d, signer, path, rest, hd, hsigner, hextraction, hpath, -⟩ := hlists lists h
  obtain rfl : cyclicData = d := Except.ok.inj (hread.symm.trans hd)
  obtain rfl := List.singleton_inj.1 hsigner
  exact ⟨lists, h, Except.ok.inj hchained, path, rest, hextraction, hpath⟩

end SignedFirmware.Blob
