import SignedFirmware.Proofs.Bytes
import SignedFirmware.Proofs.Der.Element
import SignedFirmware.Proofs.Der.SetOf

/-!
# The order of headers and values is the order of encodings

Members of a set are compared field by field, each by its header and then by its value. This is the
order in which their encodings stand, byte by byte: a tag comes first in an encoding, of two lengths
the smaller one has the spelling that comes first, and no spelling of a length is the front of
another one. So comparing plain values field after field agrees with comparing encodings, for as
long as these can be spelled.
-/

namespace SignedFirmware.Der

/-! ## Comparing byte strings -/

@[simp] theorem compareBytes_self (a : Bytes) : compareBytes a a = .eq := by
  induction a with
  | nil => rfl
  | cons x a ih => rw [compareBytes, Nat.compare_eq_eq.2 rfl, ih, Ordering.then_eq]

theorem eq_of_compareBytes {a b : Bytes} (h : compareBytes a b = .eq) : a = b := by
  induction a generalizing b with
  | nil =>
    cases b with
    | nil => rfl
    | cons y b => cases h
  | cons x a ih =>
    cases b with
    | nil => cases h
    | cons y b =>
      obtain ⟨hbyte, hrest⟩ := Ordering.then_eq_eq.1 h
      rw [UInt8.toNat_inj.1 (Nat.compare_eq_eq.1 hbyte), ih hrest]

theorem compareBytes_swap (a b : Bytes) : (compareBytes a b).swap = compareBytes b a := by
  induction a generalizing b with
  | nil => cases b <;> rfl
  | cons x a ih =>
    cases b with
    | nil => rfl
    | cons y b => rw [compareBytes, compareBytes, Ordering.swap_then, Nat.compare_swap, ih]

theorem compareHeader_swap (a b : Element) : (compareHeader a b).swap = compareHeader b a := by
  rw [compareHeader, compareHeader, Ordering.swap_then, Nat.compare_swap, Nat.compare_swap]

theorem comparePlain_swap (a b : Element) : (comparePlain a b).swap = comparePlain b a := by
  rw [comparePlain, comparePlain, Ordering.swap_then, compareHeader_swap, compareBytes_swap]

theorem compareChoice_swap (a b : Element) : (compareChoice a b).swap = compareChoice b a := by
  rw [compareChoice, compareChoice, compareNumberSequences, compareNumberSequences,
    Ordering.swap_then, Ordering.swap_then, compareHeader_swap, Nat.compare_swap, compareBytes_swap]

theorem compareBytes_append {a b : Bytes} (h : a.length = b.length) (x y : Bytes) :
    compareBytes (a ++ x) (b ++ y) = (compareBytes a b).then (compareBytes x y) := by
  induction a generalizing b with
  | nil =>
    obtain rfl := List.length_eq_zero_iff.1 h.symm
    rfl
  | cons c a ih =>
    cases b with
    | nil => cases h
    | cons d b =>
      rw [List.cons_append, List.cons_append, compareBytes, compareBytes, ih (Nat.succ.inj h),
        Ordering.then_assoc]

/-- Byte strings of one length come in the order of the numbers that they spell. -/
theorem compareBytes_eq_compare_toNat {a b : Bytes} (h : a.length = b.length) :
    compareBytes a b = compare a.toNat b.toNat := by
  induction a generalizing b with
  | nil =>
    obtain rfl := List.length_eq_zero_iff.1 h.symm
    rfl
  | cons x a ih =>
    cases b with
    | nil => cases h
    | cons y b =>
      have hlength : a.length = b.length := Nat.succ.inj h
      have ha := Bytes.toNat_lt a
      have hb := Bytes.toNat_lt b
      rw [compareBytes, ih hlength, Bytes.toNat_cons, Bytes.toNat_cons, hlength]
      rw [hlength] at ha
      set w := 256 ^ b.length
      -- a first byte that differs outweighs all that follow
      rcases Nat.lt_trichotomy x.toNat y.toNat with hlt | heq | hgt
      · have hstep : (x.toNat + 1) * w ≤ y.toNat * w := Nat.mul_le_mul_right w hlt
        rw [Nat.succ_mul] at hstep
        rw [Nat.compare_eq_lt.2 hlt, Ordering.lt_then, Nat.compare_eq_lt.2 (by omega)]
      · rw [heq, Nat.compare_eq_eq.2 rfl, Ordering.eq_then]
        simp only [Nat.compare_eq_ite_lt, Nat.add_lt_add_iff_left]
      · have hstep : (y.toNat + 1) * w ≤ x.toNat * w := Nat.mul_le_mul_right w hgt
        rw [Nat.succ_mul] at hstep
        rw [Nat.compare_eq_gt.2 hgt, Ordering.gt_then, Nat.compare_eq_gt.2 (by omega)]

/-! ## Lengths -/

/-- A smaller length comes first, whatever follows it. -/
theorem compareBytes_lengthBytes_of_lt {m n : Nat} (hn : n ≤ maxLength) (h : m < n) (x y : Bytes) :
    compareBytes (lengthBytes m ++ x) (lengthBytes n ++ y) = .lt := by
  by_cases hshort : n < 0x80
  · have hm : (UInt8.ofNat m).toNat = m := by rw [UInt8.toNat_ofNat']; omega
    have hn : (UInt8.ofNat n).toNat = n := by rw [UInt8.toNat_ofNat']; omega
    rw [lengthBytes_of_lt hshort, lengthBytes_of_lt (h.trans hshort), List.singleton_append,
      List.singleton_append, compareBytes, hm, hn, Nat.compare_eq_lt.2 h, Ordering.lt_then]
  have hlong := length_ofNat_le_four hn
  have hfirst : (UInt8.ofNat (0x80 + (Bytes.ofNat n).length)).toNat =
      0x80 + (Bytes.ofNat n).length := by rw [UInt8.toNat_ofNat']; omega
  rw [lengthBytes_of_le (Nat.le_of_not_lt hshort), List.cons_append]
  by_cases hm : m < 0x80
  · have hbyte : (UInt8.ofNat m).toNat = m := by rw [UInt8.toNat_ofNat']; omega
    rw [lengthBytes_of_lt hm, List.singleton_append, compareBytes, hbyte, hfirst,
      Nat.compare_eq_lt.2 (by omega), Ordering.lt_then]
  -- both have a number of octets in front, and with equal numbers the octets decide
  have hmono := Bytes.length_ofNat_mono h.le
  have hfirst' : (UInt8.ofNat (0x80 + (Bytes.ofNat m).length)).toNat =
      0x80 + (Bytes.ofNat m).length := by rw [UInt8.toNat_ofNat']; omega
  rw [lengthBytes_of_le (Nat.le_of_not_lt hm), List.cons_append, compareBytes, hfirst, hfirst']
  rcases Nat.lt_or_eq_of_le hmono with hlt | heq
  · rw [Nat.compare_eq_lt.2 (by omega), Ordering.lt_then]
  · rw [heq, Nat.compare_eq_eq.2 rfl, Ordering.eq_then, compareBytes_append heq,
      compareBytes_eq_compare_toNat heq, Bytes.toNat_ofNat, Bytes.toNat_ofNat,
      Nat.compare_eq_lt.2 h, Ordering.lt_then]

theorem compareBytes_lengthBytes {m n : Nat} (hm : m ≤ maxLength) (hn : n ≤ maxLength)
    (x y : Bytes) :
    compareBytes (lengthBytes m ++ x) (lengthBytes n ++ y) =
      (compare m n).then (compareBytes x y) := by
  rcases Nat.lt_trichotomy m n with hlt | rfl | hgt
  · rw [compareBytes_lengthBytes_of_lt hn hlt, Nat.compare_eq_lt.2 hlt, Ordering.lt_then]
  · rw [compareBytes_append rfl, compareBytes_self, Nat.compare_eq_eq.2 rfl]
  · rw [← compareBytes_swap, compareBytes_lengthBytes_of_lt hm hgt, Nat.compare_eq_gt.2 hgt,
      Ordering.gt_then, Ordering.swap_lt]

/-! ## Elements -/

theorem compareBytes_encode_append {a b : Element} (ha : a.content.length ≤ maxLength)
    (hb : b.content.length ≤ maxLength) (x y : Bytes) :
    compareBytes (a.encode ++ x) (b.encode ++ y) = (comparePlain a b).then (compareBytes x y) := by
  rw [Element.encode, Element.encode, List.cons_append, List.cons_append, List.append_assoc,
    List.append_assoc, compareBytes, compareBytes_lengthBytes ha hb, comparePlain, compareHeader]
  by_cases hlength : a.content.length = b.content.length
  · rw [compareBytes_append hlength, Ordering.then_assoc, Ordering.then_assoc]
  · rcases Nat.lt_or_gt_of_ne hlength with hlt | hgt
    · rw [Nat.compare_eq_lt.2 hlt]
      cases compare a.tag.toNat b.tag.toNat <;> rfl
    · rw [Nat.compare_eq_gt.2 hgt]
      cases compare a.tag.toNat b.tag.toNat <;> rfl

/-- **Plain elements come in the order of their encodings.** -/
theorem compareBytes_encode {a b : Element} (ha : a.content.length ≤ maxLength)
    (hb : b.content.length ≤ maxLength) : compareBytes a.encode b.encode = comparePlain a b := by
  have h := compareBytes_encode_append ha hb [] []
  rwa [List.append_nil, List.append_nil, compareBytes_self, Ordering.then_eq] at h

/-- Elements made of two plain ones are compared by their header and then one after the other. -/
theorem compareBytes_encode_pair {tag : Tag} {a b c d : Element}
    (hab : (Element.ofElements tag [a, b]).content.length ≤ maxLength)
    (hcd : (Element.ofElements tag [c, d]).content.length ≤ maxLength) :
    compareBytes (Element.ofElements tag [a, b]).encode (Element.ofElements tag [c, d]).encode =
      ((compareHeader (.ofElements tag [a, b]) (.ofElements tag [c, d])).then
        (comparePlain a c)).then (comparePlain b d) := by
  have hshort : ∀ {x y : Element}, (Element.ofElements tag [x, y]).content.length ≤ maxLength →
      x.content.length ≤ maxLength ∧ y.content.length ≤ maxLength := fun h ↦
    ⟨(length_content_le_of_mem (by simp)).trans h, (length_content_le_of_mem (by simp)).trans h⟩
  obtain ⟨ha, hb⟩ := hshort hab
  obtain ⟨hc, hd⟩ := hshort hcd
  have hcontent : compareBytes (Element.ofElements tag [a, b]).content
      (Element.ofElements tag [c, d]).content = (comparePlain a c).then (comparePlain b d) := by
    simp only [Element.ofElements, List.flatMap_cons, List.flatMap_nil, List.append_nil]
    rw [compareBytes_encode_append ha hc, compareBytes_encode hb hd]
  rw [compareBytes_encode hab hcd, comparePlain, hcontent, Ordering.then_assoc]

end SignedFirmware.Der
