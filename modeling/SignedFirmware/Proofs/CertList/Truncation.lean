import Mathlib.Data.Nat.ModEq
import SignedFirmware.Proofs.CertList

/-!
# Lists that were cut off

Each record says how long it is, so the front of a list is taken apart in the same way as the list
(`splitRecords_flatMap_append`). What is left after a cut is therefore made of records only if the
cut is between two of them. Inside of the count, of a length or of a certificate it is noticed for
that reason, and between two records by the count alone. But the count is kept modulo 256: a list
that lost a multiple of 256 records still passes (`accepted_front_iff`), and shorter lists are safe.
-/

namespace SignedFirmware.CertList

variable {data front : Bytes} {l : CertList} {rs : List Bytes} {k : Nat}

/-! ## The count -/

theorem ofNat_eq_ofNat_iff {m n : Nat} : UInt8.ofNat m = UInt8.ofNat n ↔ m ≡ n [MOD 256] := by
  rw [← UInt8.toNat_inj, UInt8.toNat_ofNat', UInt8.toNat_ofNat']
  exact Iff.rfl

/-- Of at most 256 records, none can be lost without a change of the count. -/
theorem not_modEq_of_lt {n : Nat} (hpos : 1 ≤ k) (hlt : k < n) (hn : n ≤ 256) :
    ¬k ≡ n [MOD 256] := by
  intro h
  have hdvd : 256 ∣ n - k := (Nat.modEq_iff_dvd' hlt.le).1 h
  have hle : 256 ≤ n - k := Nat.le_of_dvd (Nat.sub_pos_of_lt hlt) hdvd
  omega

/-! ## Places between records -/

theorem Short.take (hrs : Short rs) (k : Nat) : Short (rs.take k) :=
  fun r hr ↦ hrs r (List.mem_of_mem_take hr)

/-- Where a serialized list is after its first `k` records, behind the count. -/
def boundary (rs : List Bytes) (k : Nat) : Nat :=
  1 + ((rs.take k).map fun r ↦ recordHeaderSize + r.length).sum

theorem length_bytes_ofRecords (rs : List Bytes) :
    (ofRecords rs).bytes.length = 1 + (rs.map fun r ↦ recordHeaderSize + r.length).sum := by
  rw [bytes_ofRecords, List.length_cons, List.length_flatMap, Nat.add_comm]
  simp only [length_record]

theorem length_bytes_take (rs : List Bytes) (k : Nat) :
    (ofRecords (rs.take k)).bytes.length = boundary rs k :=
  length_bytes_ofRecords _

/-- A list with fewer records and the same count is a front of the longer one. -/
theorem bytes_take_prefix (hle : k ≤ rs.length) (hcount : k ≡ rs.length [MOD 256]) :
    (ofRecords (rs.take k)).bytes <+: (ofRecords rs).bytes := by
  have hfront : (rs.take k).flatMap record <+: rs.flatMap record := by
    rw [← List.take_append_drop k rs, List.flatMap_append, List.take_append_drop]
    exact List.prefix_append _ _
  rw [bytes_ofRecords, bytes_ofRecords, List.length_take_of_le hle, ofNat_eq_ofNat_iff.2 hcount]
  exact List.cons_prefix_cons.2 ⟨rfl, hfront⟩

/-! ## What is left -/

/-- Records at the front of other records are the first of them. -/
theorem prefix_of_flatMap_prefix {more : List Bytes} (hrs : Short rs) (hmore : Short more)
    (h : rs.flatMap record <+: more.flatMap record) : rs <+: more := by
  obtain ⟨rest, hrest⟩ := h
  refine ⟨splitRecords rest, ?_⟩
  rw [← splitRecords_flatMap_append hrs, hrest, splitRecords_flatMap hmore]

/-- A front of a list is accepted if it is a list of the first records, with a count that fits. -/
theorem ofBytes_front_eq_ok_iff (hrs : Short rs) (hfront : front <+: (ofRecords rs).bytes) :
    ofBytes front = .ok l ↔
      ∃ k, 1 ≤ k ∧ k ≤ rs.length ∧ k ≡ rs.length [MOD 256] ∧ front.length = boundary rs k ∧
        l = ofRecords (rs.take k) := by
  rw [ofBytes_eq_ok_iff]
  constructor
  · rintro ⟨rfl, left, hne, hleft, rfl⟩
    rw [bytes_ofRecords, bytes_ofRecords, List.cons_prefix_cons] at hfront
    obtain ⟨hcount, hrecords⟩ := hfront
    have hprefix : left <+: rs := prefix_of_flatMap_prefix hleft hrs hrecords
    have htake : rs.take left.length = left := (List.prefix_iff_eq_take.1 hprefix).symm
    refine ⟨left.length, List.length_pos_iff.2 hne, hprefix.length_le, ofNat_eq_ofNat_iff.1 hcount,
      ?_, ?_⟩
    · rw [← length_bytes_take, htake]
    · rw [htake]
  · rintro ⟨k, hpos, hle, hcount, hlength, rfl⟩
    -- fronts of the same bytes with the same length are the same
    have hshorter : (ofRecords (rs.take k)).bytes <+: (ofRecords rs).bytes :=
      bytes_take_prefix hle hcount
    have hsame : front <+: (ofRecords (rs.take k)).bytes :=
      List.prefix_of_prefix_length_le hfront hshorter (by rw [length_bytes_take, hlength])
    refine ⟨hsame.eq_of_length (by rw [length_bytes_take, hlength]), rs.take k, ?_, ?_, rfl⟩
    · rw [← List.length_pos_iff, List.length_take_of_le hle]
      exact hpos
    · exact hrs.take k

/-- **Which cuts are not noticed.** Take any list that is accepted and anything that is left of it
after a cut. That is accepted if and only if the cut is right behind some of the records, but not
all and not none, and their number is that of all of them modulo 256. Then it is the list of these
records. So a list of at most 256 records cannot be cut without notice. -/
theorem accepted_front_iff (h : ofBytes data = .ok l) (hfront : front <+: data)
    (hne : front ≠ data) :
    ((∃ left, ofBytes front = .ok left) ↔
      ∃ k, 1 ≤ k ∧ k < l.records.length ∧ k ≡ l.records.length [MOD 256] ∧
        front.length = boundary l.records k) ∧
    (∀ left, ofBytes front = .ok left →
      left.records = l.records.take left.records.length ∧
        front.length = boundary l.records left.records.length) ∧
    (l.records.length ≤ 256 → ∀ left, ofBytes front ≠ .ok left) := by
  obtain ⟨rfl, rs, -, hrs, rfl⟩ := ofBytes_eq_ok_iff.1 h
  rw [records_ofRecords hrs]
  -- with all records there would have been no cut
  have hlt : ∀ k, k ≤ rs.length → front.length = boundary rs k → k < rs.length := by
    intro k hle hlength
    refine lt_of_le_of_ne hle ?_
    rintro rfl
    rw [← length_bytes_take, List.take_length] at hlength
    exact hne (hfront.eq_of_length hlength)
  have hleft : ∀ left, ofBytes front = .ok left →
      ∃ k, 1 ≤ k ∧ k < rs.length ∧ k ≡ rs.length [MOD 256] ∧ front.length = boundary rs k ∧
        left = ofRecords (rs.take k) := by
    intro left hleft
    obtain ⟨k, hpos, hle, hcount, hlength, hlist⟩ := (ofBytes_front_eq_ok_iff hrs hfront).1 hleft
    exact ⟨k, hpos, hlt k hle hlength, hcount, hlength, hlist⟩
  refine ⟨⟨?_, ?_⟩, ?_, ?_⟩
  · rintro ⟨left, hok⟩
    obtain ⟨k, hpos, hless, hcount, hlength, -⟩ := hleft left hok
    exact ⟨k, hpos, hless, hcount, hlength⟩
  · rintro ⟨k, hpos, hless, hcount, hlength⟩
    exact ⟨_, (ofBytes_front_eq_ok_iff hrs hfront).2
      ⟨k, hpos, hless.le, hcount, hlength, rfl⟩⟩
  · intro left hok
    obtain ⟨k, -, hless, -, hlength, rfl⟩ := hleft left hok
    rw [records_ofRecords (hrs.take k), List.length_take_of_le hless.le]
    exact ⟨rfl, hlength⟩
  · intro hsmall left hok
    obtain ⟨k, hpos, hless, hcount, -⟩ := hleft left hok
    exact not_modEq_of_lt hpos hless hsmall hcount

/-- Of a list of 258 records, the first eleven bytes are its first two records, and they pass. -/
theorem accepted_front_iff_wrapped :
    ofBytes (ofRecords (List.replicate 258 [0xaa])).bytes =
        .ok (ofRecords (List.replicate 258 [0xaa])) ∧
      (ofRecords (List.replicate 258 [0xaa])).bytes.take 11 <+:
        (ofRecords (List.replicate 258 [0xaa])).bytes ∧
      (ofRecords (List.replicate 258 [0xaa])).bytes.take 11 ≠
        (ofRecords (List.replicate 258 [0xaa])).bytes ∧
      ∃ left, ofBytes ((ofRecords (List.replicate 258 [0xaa])).bytes.take 11) = .ok left := by
  have hshort : Short (List.replicate 258 [0xaa]) := by decide +kernel
  have hlist : ofBytes (ofRecords (List.replicate 258 [0xaa])).bytes =
      .ok (ofRecords (List.replicate 258 [0xaa])) :=
    ofBytes_eq_ok_iff.2 ⟨rfl, _, by decide, hshort, rfl⟩
  have hrecords : (ofRecords (List.replicate 258 [0xaa])).records = List.replicate 258 [0xaa] :=
    records_ofRecords hshort
  have hfront : (ofRecords (List.replicate 258 [0xaa])).bytes.take 11 <+:
      (ofRecords (List.replicate 258 [0xaa])).bytes := List.take_prefix 11 _
  have hne : (ofRecords (List.replicate 258 [0xaa])).bytes.take 11 ≠
      (ofRecords (List.replicate 258 [0xaa])).bytes := by decide +kernel
  obtain ⟨haccepted, -⟩ := accepted_front_iff hlist hfront hne
  rw [hrecords] at haccepted
  refine ⟨hlist, hfront, hne, haccepted.2 ⟨2, by decide, ?_, ?_, by decide +kernel⟩⟩
  · rw [List.length_replicate]
    decide
  · rw [List.length_replicate]
    decide

end SignedFirmware.CertList
