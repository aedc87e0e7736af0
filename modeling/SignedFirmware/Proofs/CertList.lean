import SignedFirmware.CertList
import SignedFirmware.Proofs.Bytes
import SignedFirmware.Proofs.Except

/-!
# Lists of certificates and their records

Three loops know the format of a list: one writes records, one checks what others wrote, and one
takes a list apart. All of them come down to the same step, a record at the front of what is left
(`splitRecord?_eq_some_iff`), and each loop is that step repeated.

So the bytes of a list and its records determine each other (`lists_correspond_records`), for any
number of records, although the count in front only says it modulo 256. What is needed is that a
record is short enough for its length to fit into four bytes: of a longer one, only the remainder
of the length would be written.
-/

namespace SignedFirmware.CertList

variable {data der rest : Bytes} {rs more : List Bytes} {index offset n : Nat}

/-! ## One record -/

theorem splitRecord?_record_append (h : der.length < recordLimit) (rest : Bytes) :
    splitRecord? (record der ++ rest) = some (der, rest) := by
  have hsize : Bytes.toNatLE (Bytes.ofNatLE 4 der.length) = der.length := by
    rw [Bytes.toNatLE_ofNatLE]
    exact Nat.mod_eq_of_lt h
  -- four bytes are in front, and they spell the length
  obtain ⟨a, b, c, d, hheader⟩ : ∃ a b c d, Bytes.ofNatLE 4 der.length = [a, b, c, d] :=
    ⟨_, _, _, _, rfl⟩
  rw [hheader] at hsize
  rw [record, recordHeaderSize, hheader]
  simp only [List.cons_append, List.nil_append, splitRecord?]
  rw [hsize, if_pos (by simp), List.take_left, List.drop_left]

/-- A record that was taken off the front stands there in its one spelling. -/
theorem eq_record_append_of_splitRecord? (h : splitRecord? data = some (der, rest)) :
    der.length < recordLimit ∧ data = record der ++ rest := by
  unfold splitRecord? at h
  split at h
  · rename_i a b c d tail
    simp only [Option.ite_none_right_eq_some, Option.some.injEq, Prod.mk.injEq] at h
    obtain ⟨hsize, rfl, rfl⟩ := h
    have hlength : (tail.take (Bytes.toNatLE [a, b, c, d])).length = Bytes.toNatLE [a, b, c, d] :=
      List.length_take_of_le hsize
    have hlt : Bytes.toNatLE [a, b, c, d] < 256 ^ 4 := Bytes.toNatLE_lt [a, b, c, d]
    have hheader : Bytes.ofNatLE 4 (Bytes.toNatLE [a, b, c, d]) = [a, b, c, d] :=
      Bytes.ofNatLE_toNatLE [a, b, c, d]
    refine ⟨hlength.trans_lt hlt, ?_⟩
    rw [record, recordHeaderSize, hlength, hheader, List.append_assoc, List.take_append_drop]
    rfl
  · cases h

theorem splitRecord?_eq_some_iff :
    splitRecord? data = some (der, rest) ↔
      der.length < recordLimit ∧ data = record der ++ rest := by
  constructor
  · exact eq_record_append_of_splitRecord?
  · rintro ⟨hlength, rfl⟩
    exact splitRecord?_record_append hlength rest

theorem length_record (der : Bytes) : (record der).length = recordHeaderSize + der.length := by
  rw [record, List.length_append, Bytes.length_ofNatLE]

theorem record_append_ne_nil (der rest : Bytes) : record der ++ rest ≠ [] := by
  rw [← List.length_pos_iff, List.length_append, length_record, recordHeaderSize]
  omega

/-! ## Records in a row -/

/-- All records are short enough for their length to be written. -/
def Short (rs : List Bytes) : Prop := ∀ r ∈ rs, r.length < recordLimit

instance (rs : List Bytes) : Decidable (Short rs) := by
  unfold Short
  infer_instance

theorem short_nil : Short [] := by
  simp [Short]

theorem short_cons_iff : Short (der :: rs) ↔ der.length < recordLimit ∧ Short rs :=
  List.forall_mem_cons

theorem splitRecords_record_append (h : der.length < recordLimit) (rest : Bytes) :
    splitRecords (record der ++ rest) = der :: splitRecords rest := by
  rw [splitRecords]
  split
  · rename_i hnone
    rw [splitRecord?_record_append h] at hnone
    cases hnone
  · rename_i first left hsome
    rw [splitRecord?_record_append h, Option.some.injEq, Prod.mk.injEq] at hsome
    rw [← hsome.1, ← hsome.2]

/-- Records are taken apart in the same way whatever is behind them. -/
theorem splitRecords_flatMap_append (h : Short rs) (rest : Bytes) :
    splitRecords (rs.flatMap record ++ rest) = rs ++ splitRecords rest := by
  induction rs with
  | nil => rfl
  | cons r rs ih =>
    obtain ⟨hr, hrs⟩ := short_cons_iff.1 h
    rw [List.flatMap_cons, List.append_assoc, splitRecords_record_append hr, ih hrs,
      List.cons_append]

theorem splitRecords_flatMap (h : Short rs) : splitRecords (rs.flatMap record) = rs := by
  have hnil : splitRecords [] = [] := by
    rw [splitRecords]
    rfl
  have hall := splitRecords_flatMap_append h []
  rwa [List.append_nil, hnil, List.append_nil] at hall

theorem countRecords_record_append (h : der.length < recordLimit) (rest : Bytes) :
    countRecords index offset (record der ++ rest) =
      countRecords (index + 1) (offset + recordHeaderSize + der.length) rest := by
  rw [countRecords, if_neg (record_append_ne_nil der _)]
  split
  · rename_i hnone
    rw [splitRecord?_record_append h] at hnone
    cases hnone
  · rename_i first left hsome
    rw [splitRecord?_record_append h, Option.some.injEq, Prod.mk.injEq] at hsome
    rw [← hsome.1, ← hsome.2]

/-- Bytes are counted as records if and only if they are nothing but records. -/
theorem countRecords_eq_ok_iff :
    countRecords index offset data = .ok n ↔
      ∃ rs, Short rs ∧ data = rs.flatMap record ∧ n = index + rs.length := by
  constructor
  · intro h
    fun_induction countRecords index offset data with
    | case1 index offset =>
      cases h
      exact ⟨[], short_nil, rfl, rfl⟩
    | case2 => cases h
    | case3 index offset data hne der rest hsplit ih =>
      obtain ⟨hder, rfl⟩ := splitRecord?_eq_some_iff.1 hsplit
      obtain ⟨rs, hrs, rfl, rfl⟩ := ih h
      refine ⟨der :: rs, short_cons_iff.2 ⟨hder, hrs⟩, List.flatMap_cons.symm, ?_⟩
      rw [List.length_cons]
      omega
  · rintro ⟨rs, hrs, rfl, rfl⟩
    induction rs generalizing index offset with
    | nil =>
      rw [countRecords]
      exact if_pos rfl
    | cons r rs ih =>
      obtain ⟨hr, hrs⟩ := short_cons_iff.1 hrs
      rw [List.flatMap_cons, countRecords_record_append hr, ih hrs, List.length_cons, Nat.add_assoc,
        Nat.add_comm 1]

/-! ## Lists -/

def ofRecords (rs : List Bytes) : CertList := ⟨UInt8.ofNat rs.length, rs.flatMap record⟩

@[simp] theorem bytes_ofRecords (rs : List Bytes) :
    (ofRecords rs).bytes = UInt8.ofNat rs.length :: rs.flatMap record := rfl

theorem records_ofRecords (h : Short rs) : (ofRecords rs).records = rs :=
  splitRecords_flatMap h

/-- What is accepted as a list is one of short records, at least one of them. -/
theorem ofBytes_eq_ok_iff {l : CertList} :
    ofBytes data = .ok l ↔
      data = l.bytes ∧ ∃ rs, rs ≠ [] ∧ Short rs ∧ l = ofRecords rs := by
  cases data with
  | nil => simp [ofBytes, bytes]
  | cons count body =>
    simp only [ofBytes, Checked.bind_eq_ok_iff, countRecords_eq_ok_iff]
    constructor
    · rintro ⟨n, ⟨rs, hrs, rfl, rfl⟩, h⟩
      split at h
      · cases h
      · rename_i hcount
        rw [not_or, Nat.zero_add, List.length_eq_zero_iff, not_not] at hcount
        obtain ⟨hne, rfl⟩ := hcount
        cases h
        exact ⟨rfl, rs, hne, hrs, rfl⟩
    · rintro ⟨hdata, rs, hne, hrs, rfl⟩
      obtain ⟨rfl, rfl⟩ := List.cons.inj hdata
      have hcount : ¬(0 + rs.length = 0 ∨
          UInt8.ofNat (0 + rs.length) ≠ UInt8.ofNat rs.length) := by
        rw [Nat.zero_add, not_or, List.length_eq_zero_iff, not_not]
        exact ⟨hne, rfl⟩
      exact ⟨_, ⟨rs, hrs, rfl, rfl⟩, if_neg hcount⟩

/-! ## Builders -/

namespace Builder

def ofRecords (rs : List Bytes) : Builder :=
  ⟨if rs = [] then [] else 0 :: rs.flatMap record, rs.length⟩

/-- One more record goes behind those that are there. The placeholder is put in front of the
first. -/
theorem push_ofRecords (rs : List Bytes) (h : der.length < recordLimit) :
    (ofRecords rs).push der = .ok (ofRecords (rs ++ [der])) := by
  rw [push, if_pos h]
  cases rs with
  | nil => simp [ofRecords]
  | cons r rs => simp [ofRecords]

theorem foldlM_push_ofRecords (rs more : List Bytes) {b : Builder} :
    more.foldlM push (ofRecords rs) = .ok b ↔ Short more ∧ b = ofRecords (rs ++ more) := by
  induction more generalizing rs with
  | nil =>
    rw [List.foldlM_nil, Checked.pure_eq_ok_iff, List.append_nil, eq_comm]
    exact (and_iff_right short_nil).symm
  | cons der more ih =>
    rw [List.foldlM_cons, short_cons_iff, and_assoc]
    by_cases h : der.length < recordLimit
    · rw [push_ofRecords rs h]
      have hstep := ih (rs ++ [der])
      rw [List.append_assoc, List.singleton_append] at hstep
      exact hstep.trans (and_iff_right h).symm
    · rw [push, if_neg h]
      constructor
      · exact fun hfail ↦ nomatch hfail
      · exact fun hshort ↦ absurd hshort.1 h

theorem finish_ofRecords (rs : List Bytes) :
    (ofRecords rs).finish = if rs = [] then none else some (CertList.ofRecords rs) := by
  cases rs with
  | nil => rfl
  | cons r rs => simp [ofRecords, finish, CertList.ofRecords]

end Builder

theorem ofDer_eq_ok_iff {list : Option CertList} :
    ofDer rs = .ok list ↔
      Short rs ∧ list = if rs = [] then none else some (ofRecords rs) := by
  have hempty : ({} : Builder) = Builder.ofRecords [] := rfl
  rw [ofDer, Checked.map_eq_ok_iff, hempty]
  constructor
  · rintro ⟨b, hb, rfl⟩
    obtain ⟨hshort, rfl⟩ := (Builder.foldlM_push_ofRecords [] rs).1 hb
    exact ⟨hshort, Builder.finish_ofRecords rs⟩
  · rintro ⟨hshort, rfl⟩
    refine ⟨_, (Builder.foldlM_push_ofRecords [] rs).2 ⟨hshort, rfl⟩, ?_⟩
    exact Builder.finish_ofRecords rs

/-! ## The correspondence -/

/-- Records that a list can be made of. -/
structure Listable (rs : List Bytes) : Prop where
  ne_nil : rs ≠ []
  short : Short rs

instance (rs : List Bytes) : Decidable (Listable rs) :=
  decidable_of_iff (rs ≠ [] ∧ Short rs) ⟨fun h ↦ ⟨h.1, h.2⟩, fun h ↦ ⟨h.ne_nil, h.short⟩⟩

/-- The bytes of a list tell its records. -/
theorem bytes_ofRecords_inj (hrs : Short rs) (hmore : Short more)
    (h : (ofRecords rs).bytes = (ofRecords more).bytes) : rs = more := by
  have hbody : rs.flatMap record = more.flatMap record := (List.cons.inj h).2
  rw [← splitRecords_flatMap hrs, hbody, splitRecords_flatMap hmore]

/-- **Lists and their records correspond.** From any records that a list can be made of, the builder
makes the list that starts with their number modulo 256 and goes on with the length and the bytes of
each; it is accepted, and taken apart into these records again. Any bytes that are accepted are the
serialization of exactly one such sequence of records, which is what the list is taken apart into
and from which the same list is built. So different records have different serializations. -/
theorem lists_correspond_records :
    (∀ rs, Listable rs →
      ofDer rs = .ok (some (ofRecords rs)) ∧
      (ofRecords rs).bytes =
        UInt8.ofNat rs.length :: (rs.flatMap fun r ↦ Bytes.ofNatLE 4 r.length ++ r) ∧
      ofBytes (ofRecords rs).bytes = .ok (ofRecords rs) ∧
      (ofRecords rs).records = rs) ∧
    (∀ data l, ofBytes data = .ok l →
      l.bytes = data ∧
      (∃! rs, Listable rs ∧ (ofRecords rs).bytes = data) ∧
      (Listable l.records ∧ (ofRecords l.records).bytes = data) ∧
      ofDer l.records = .ok (some l)) ∧
    ∀ rs more, Listable rs → Listable more →
      (ofRecords rs).bytes = (ofRecords more).bytes → rs = more := by
  refine ⟨fun rs hrs ↦ ?_, fun data l hl ↦ ?_, fun rs more hrs hmore ↦ ?_⟩
  · have hbuilt : ofDer rs = .ok (some (ofRecords rs)) :=
      ofDer_eq_ok_iff.2 ⟨hrs.short, (if_neg hrs.ne_nil).symm⟩
    have haccepted : ofBytes (ofRecords rs).bytes = .ok (ofRecords rs) :=
      ofBytes_eq_ok_iff.2 ⟨rfl, rs, hrs.ne_nil, hrs.short, rfl⟩
    exact ⟨hbuilt, rfl, haccepted, records_ofRecords hrs.short⟩
  · obtain ⟨rfl, rs, hne, hshort, rfl⟩ := ofBytes_eq_ok_iff.1 hl
    have hrs : Listable rs := ⟨hne, hshort⟩
    refine ⟨rfl, ⟨rs, ⟨hrs, rfl⟩, ?_⟩, ?_⟩
    · rintro more ⟨hmore, hbytes⟩
      exact bytes_ofRecords_inj hmore.short hshort hbytes
    · rw [records_ofRecords hshort]
      exact ⟨⟨hrs, rfl⟩, ofDer_eq_ok_iff.2 ⟨hshort, (if_neg hne).symm⟩⟩
  · exact bytes_ofRecords_inj hrs.short hmore.short

/-- A list of 257 records counts as a list of one, and yet no record is lost. -/
theorem lists_correspond_records_wrapped :
    Listable (List.replicate 257 [0xaa]) ∧
      (ofRecords (List.replicate 257 [0xaa])).count = 1 ∧
      (ofRecords (List.replicate 257 [0xaa])).records = List.replicate 257 [0xaa] ∧
      ofDer (ofRecords (List.replicate 257 [0xaa])).records =
        .ok (some (ofRecords (List.replicate 257 [0xaa]))) := by
  have hrs : Listable (List.replicate 257 [0xaa]) := by decide +kernel
  obtain ⟨hbuild, haccept, -⟩ := lists_correspond_records
  obtain ⟨-, -, haccepted, hrecords⟩ := hbuild _ hrs
  obtain ⟨-, -, -, hagain⟩ := haccept _ _ haccepted
  exact ⟨hrs, by decide +kernel, hrecords, hagain⟩

end SignedFirmware.CertList
