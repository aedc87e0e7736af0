import SignedFirmware.Proofs.CertList.Truncation

/-!
# What is wrong with bytes that are no list

Bytes that are no list are refused with an error that says where the fault is. The loop that looks
for it goes from record to record with an index, an offset and what is left to read, and the first
place where no record starts is the fault (`countRecords_eq_error_iff`). If there is none, all bytes
are records and only the count can be wrong. `Error.Describes` says what each error claims about the
bytes, without the loop. An error is given if and only if it describes them, and no two errors
describe the same bytes, so all numbers in an error are right (`fault_located`).

The lengths come from whoever made the bytes, but a length is only added to an offset once so many
bytes were found. So none of the sums that the loop forms goes past the number of bytes: with
additions that would fail there, the loop ends as it does without (`countRecordsWithin_eq`).
-/

namespace SignedFirmware.CertList

variable {data rest : Bytes} {rs : List Bytes} {index offset limit : Nat} {e : Error}

/-! ## Where no record starts -/

/-- No record starts at these bytes: they are too few for a length, or fewer than it announces. -/
def Incomplete (data : Bytes) : Prop :=
  data.length < recordHeaderSize ∨
    data.length < recordHeaderSize + Bytes.toNatLE (data.take recordHeaderSize)

instance (data : Bytes) : Decidable (Incomplete data) := inferInstanceAs (Decidable (_ ∨ _))

theorem splitRecord?_eq_none_iff : splitRecord? data = none ↔ Incomplete data := by
  rw [Incomplete, recordHeaderSize]
  fun_cases splitRecord? data with
  | case1 a b c d tail size hsize =>
    have hfits : Bytes.toNatLE [a, b, c, d] ≤ tail.length := hsize
    simp only [List.take_succ_cons, List.take_zero, List.length_cons, reduceCtorEq, false_iff]
    omega
  | case2 a b c d tail size hsize =>
    have hlong : ¬Bytes.toNatLE [a, b, c, d] ≤ tail.length := hsize
    simp only [List.take_succ_cons, List.take_zero, List.length_cons, true_iff]
    omega
  | case3 data hshort =>
    have hlength : data.length < 4 := by
      rcases data with _ | ⟨a, _ | ⟨b, _ | ⟨c, _ | ⟨d, tail⟩⟩⟩⟩
      · simp
      · simp
      · simp
      · simp
      · exact absurd rfl (hshort a b c d tail)
    exact iff_of_true rfl (.inl hlength)

/-! ## The first fault -/

/-- The loop stops at a place behind records only where no record starts, with the index and the
offset of that place. -/
theorem countRecords_eq_error_iff :
    countRecords index offset data = .error e ↔
      ∃ rs rest, Short rs ∧ data = rs.flatMap record ++ rest ∧ rest ≠ [] ∧ Incomplete rest ∧
        e = .truncated (index + rs.length) (offset + (rs.flatMap record).length) := by
  constructor
  · intro h
    fun_induction countRecords index offset data with
    | case1 => cases h
    | case2 index offset data hne hsplit =>
      cases h
      exact ⟨[], data, short_nil, rfl, hne, splitRecord?_eq_none_iff.1 hsplit, rfl⟩
    | case3 index offset data hne der rest hsplit ih =>
      obtain ⟨hder, rfl⟩ := splitRecord?_eq_some_iff.1 hsplit
      obtain ⟨rs, left, hrs, rfl, hleft, hcut, rfl⟩ := ih h
      refine ⟨der :: rs, left, short_cons_iff.2 ⟨hder, hrs⟩, ?_, hleft, hcut, ?_⟩
      · rw [List.flatMap_cons, List.append_assoc]
      · rw [List.flatMap_cons, List.length_append, List.length_cons, length_record]
        congr 1 <;> omega
  · rintro ⟨rs, rest, hrs, rfl, hne, hcut, rfl⟩
    induction rs generalizing index offset with
    | nil =>
      have hnone : splitRecord? rest = none := splitRecord?_eq_none_iff.2 hcut
      rw [List.flatMap_nil, List.nil_append, countRecords, if_neg hne]
      split
      · rfl
      · rename_i hsome
        rw [hnone] at hsome
        cases hsome
    | cons r rs ih =>
      obtain ⟨hr, hrs⟩ := short_cons_iff.1 hrs
      rw [List.flatMap_cons, List.append_assoc, countRecords_record_append hr, ih hrs,
        List.length_append, List.length_cons, length_record]
      congr 2 <;> omega

/-! ## Sums that stay within the bytes -/

/-- The sum of two numbers, unless it is over a limit. -/
def addWithin (limit m n : Nat) : Option Nat := if m + n ≤ limit then some (m + n) else none

/-- Counts records as `countRecords` does, with numbers that have a limit. It fails once a sum is
over the limit. -/
def countRecordsWithin (limit index offset : Nat) (data : Bytes) : Option (Except Error Nat) :=
  if data = [] then some (.ok index)
  else
    match _h : splitRecord? data with
    | none => some (.error (.truncated index offset))
    | some (der, rest) => do
      let size ← addWithin limit recordHeaderSize der.length
      let offset ← addWithin limit offset size
      let index ← addWithin limit index 1
      countRecordsWithin limit index offset rest
termination_by data.length
decreasing_by exact length_lt_of_splitRecord? _h

/-- Offset and bytes that are left make up what there is in all, and each record takes more of it
than the one by which the index grows. -/
theorem countRecordsWithin_eq (hoffset : offset + data.length ≤ limit) (hindex : index ≤ offset) :
    countRecordsWithin limit index offset data = some (countRecords index offset data) := by
  fun_induction countRecords index offset data with
  | case1 =>
    rw [countRecordsWithin]
    exact if_pos rfl
  | case2 index offset data hne hsplit =>
    rw [countRecordsWithin, if_neg hne]
    split
    · rfl
    · rename_i hsome
      rw [hsplit] at hsome
      cases hsome
  | case3 index offset data hne der rest hsplit ih =>
    obtain ⟨-, rfl⟩ := splitRecord?_eq_some_iff.1 hsplit
    rw [List.length_append, length_record] at hoffset
    rw [countRecordsWithin, if_neg hne]
    split
    · rename_i hnone
      rw [hsplit] at hnone
      cases hnone
    · rename_i first left hsome
      rw [hsplit, Option.some.injEq, Prod.mk.injEq] at hsome
      obtain ⟨rfl, rfl⟩ := hsome
      -- every sum is bounded by bytes that are there, since a record takes one at least
      have hgrows : 1 ≤ recordHeaderSize := by decide
      have hsize : addWithin limit recordHeaderSize der.length =
          some (recordHeaderSize + der.length) := if_pos (by omega)
      have hnext : addWithin limit offset (recordHeaderSize + der.length) =
          some (offset + recordHeaderSize + der.length) := by
        rw [Nat.add_assoc]
        exact if_pos (by omega)
      have hcounted : addWithin limit index 1 = some (index + 1) := if_pos (by omega)
      simp only [hsize, hnext, hcounted, Option.bind_eq_bind, Option.bind_some]
      exact ih (by omega) (by omega)

/-! ## What errors say -/

/-- What an error says about the bytes that it is given for. -/
def Error.Describes (data : Bytes) : Error → Prop
  /- There are none. -/
  | .empty => data = []
  /- Behind the count come as many records as the index says, and then, at the offset, which lies
  within the bytes, a rest at which no record starts. -/
  | .truncated index offset =>
    ∃ count rs rest, data = count :: (rs.flatMap record ++ rest) ∧ Short rs ∧ rs.length = index ∧
      1 + (rs.map fun r ↦ recordHeaderSize + r.length).sum = offset ∧
      offset < data.length ∧ data.drop offset = rest ∧ Incomplete rest
  /- The count is the expected number, and behind it come as many records as the actual number says
  and nothing else; these are none, or their number modulo 256 is another one. -/
  | .countMismatch expected actual =>
    ∃ rs, data = expected :: rs.flatMap record ∧ Short rs ∧ rs.length = actual ∧
      (actual = 0 ∨ actual % 256 ≠ expected.toNat)
  /- This is said when a list is built, never about bytes that were read. -/
  | .recordTooLarge _ => False

theorem ofBytes_cons_eq_error_iff {count : UInt8} {body : Bytes} :
    ofBytes (count :: body) = .error e ↔
      countRecords 0 1 body = .error e ∨
        ∃ n, countRecords 0 1 body = .ok n ∧ (n = 0 ∨ UInt8.ofNat n ≠ count) ∧
          e = .countMismatch count n := by
  rw [ofBytes, Checked.bind_eq_error_iff]
  refine or_congr_right (exists_congr fun n ↦ and_congr_right fun _ ↦ ?_)
  by_cases hcount : n = 0 ∨ UInt8.ofNat n ≠ count
  · rw [if_pos hcount, and_iff_right hcount]
    exact ⟨fun h ↦ (Except.error.inj h).symm, fun h ↦ congrArg Except.error h.symm⟩
  · rw [if_neg hcount]
    refine iff_of_false ?_ fun h ↦ hcount h.1
    intro h
    cases h

/-- What is behind records, by its place among all bytes. -/
theorem describes_truncated_iff {count : UInt8} {body : Bytes} :
    (Error.truncated index offset).Describes (count :: body) ↔
      ∃ rs rest, Short rs ∧ body = rs.flatMap record ++ rest ∧ rest ≠ [] ∧ Incomplete rest ∧
        Error.truncated index offset =
          .truncated (0 + rs.length) (1 + (rs.flatMap record).length) := by
  have hsum : ∀ rs : List Bytes,
      (rs.map fun r ↦ recordHeaderSize + r.length).sum = (rs.flatMap record).length := by
    intro rs
    rw [List.length_flatMap]
    simp only [length_record]
  constructor
  · rintro ⟨_, rs, rest, hdata, hrs, rfl, rfl, hinside, -, hcut⟩
    obtain ⟨rfl, rfl⟩ := List.cons.inj hdata
    rw [hsum] at hinside ⊢
    refine ⟨rs, rest, hrs, rfl, ?_, hcut, by rw [Nat.zero_add]⟩
    rintro rfl
    rw [List.length_cons, List.append_nil] at hinside
    omega
  · rintro ⟨rs, rest, hrs, rfl, hne, hcut, herror⟩
    obtain ⟨rfl, rfl⟩ := Error.truncated.inj herror
    have hpos : 0 < rest.length := List.length_pos_iff.2 hne
    refine ⟨count, rs, rest, rfl, hrs, by rw [Nat.zero_add], by rw [hsum], ?_, ?_, hcut⟩
    · rw [List.length_cons, List.length_append]
      omega
    · rw [Nat.add_comm, List.drop_succ_cons, List.drop_left]

theorem describes_countMismatch_iff {count expected : UInt8} {body : Bytes} {actual : Nat} :
    (Error.countMismatch expected actual).Describes (count :: body) ↔
      ∃ n, countRecords 0 1 body = .ok n ∧ (n = 0 ∨ UInt8.ofNat n ≠ count) ∧
        Error.countMismatch expected actual = .countMismatch count n := by
  have hne : ∀ n : Nat, UInt8.ofNat n ≠ count ↔ n % 256 ≠ count.toNat := by
    intro n
    rw [ne_eq, ← UInt8.toNat_inj, UInt8.toNat_ofNat']
  simp only [countRecords_eq_ok_iff, hne]
  constructor
  · rintro ⟨rs, hdata, hrs, rfl, hcount⟩
    obtain ⟨rfl, rfl⟩ := List.cons.inj hdata
    exact ⟨rs.length, ⟨rs, hrs, rfl, (Nat.zero_add _).symm⟩, hcount, rfl⟩
  · rintro ⟨_, ⟨rs, hrs, rfl, rfl⟩, hcount, herror⟩
    obtain ⟨rfl, rfl⟩ := Error.countMismatch.inj herror
    rw [Nat.zero_add] at hcount ⊢
    exact ⟨rs, rfl, hrs, rfl, hcount⟩

/-- An error is given for bytes if and only if it describes them. -/
theorem ofBytes_eq_error_iff : ofBytes data = .error e ↔ e.Describes data := by
  cases data with
  | nil =>
    rw [ofBytes, Except.error.injEq]
    cases e with
    | empty => exact iff_of_true rfl rfl
    | recordTooLarge size => exact iff_of_false Error.noConfusion not_false
    | truncated index offset =>
      refine iff_of_false Error.noConfusion ?_
      rintro ⟨_, _, _, hdata, -⟩
      cases hdata
    | countMismatch expected actual =>
      refine iff_of_false Error.noConfusion ?_
      rintro ⟨_, hdata, -⟩
      cases hdata
  | cons count body =>
    rw [ofBytes_cons_eq_error_iff, countRecords_eq_error_iff]
    cases e with
    | empty => simp [Error.Describes]
    | recordTooLarge size => simp [Error.Describes]
    | truncated index offset =>
      rw [describes_truncated_iff, or_iff_left]
      rintro ⟨_, _, _, herror⟩
      cases herror
    | countMismatch expected actual =>
      rw [describes_countMismatch_iff, or_iff_right]
      rintro ⟨_, _, _, _, _, _, herror⟩
      cases herror

/-- **Errors locate the fault.** Bytes are refused with an error if and only if it describes them,
and exactly one error describes bytes that are no list. Whatever lengths the records announce, no
sum that is formed on the way is over the number of bytes. -/
theorem fault_located (data : Bytes) :
    (∀ e, ofBytes data = .error e ↔ e.Describes data) ∧
    ((¬∃ l, ofBytes data = .ok l) ↔ ∃! e : Error, e.Describes data) ∧
    countRecordsWithin data.length 0 1 data.tail = some (countRecords 0 1 data.tail) := by
  refine ⟨fun e ↦ ofBytes_eq_error_iff, ?_, ?_⟩
  · simp only [← ofBytes_eq_error_iff]
    cases ofBytes data with
    | ok l => simp [ExistsUnique]
    | error e => simp [ExistsUnique]
  · cases data with
    | nil =>
      rw [List.tail_nil, countRecordsWithin, countRecords]
      rfl
    | cons count body =>
      have hlength : 1 + body.length ≤ (count :: body).length := by
        rw [List.length_cons, Nat.add_comm]
      exact countRecordsWithin_eq hlength (by decide)

/-- Behind one record stands a byte that begins a second one. -/
example : ofBytes [1, 1, 0, 0, 0, 9, 0xff] = .error (.truncated 1 6) := by decide +kernel

end SignedFirmware.CertList
