import Mathlib.Tactic.SplitIfs
import SignedFirmware.Pem.Base64

/-!
# Base64 reads what it writes

A digit is read as the number that it was written for, so each group of four characters is read as
the bytes that it was written for, and by the recursion of the writer so is the whole text
(`decode?_encode`). The remainder of the length modulo three only matters in the last group.
Whatever is read, written here or elsewhere, is spelled with the characters of the alphabet.
-/

namespace SignedFirmware.Pem.Base64

variable {n : Nat} {w x y z : UInt8}

/-! ## Characters -/

theorem value?_digit (h : n < 64) : value? (digit n) = some n := by
  revert n
  decide

/-- A digit or the padding. -/
def IsCharacter (x : UInt8) : Prop := (value? x).isSome ∨ x = padding

instance (x : UInt8) : Decidable (IsCharacter x) := inferInstanceAs (Decidable (_ ∨ _))

theorem isCharacter_padding : IsCharacter padding := .inr rfl

theorem isCharacter_digit (h : n < 64) : IsCharacter (digit n) :=
  .inl (by rw [value?_digit h]; rfl)

theorem ne_padding_of_value? (h : value? x = some n) : x ≠ padding := by
  rintro rfl
  cases h

theorem IsCharacter.lt (h : IsCharacter x) : x < 128 := by
  rcases h with h | rfl
  · simp only [value?] at h
    split_ifs at h with hupper hlower hfigure hplus hslash
    · exact UInt8.lt_of_le_of_lt hupper.2 (by decide)
    · exact UInt8.lt_of_le_of_lt hlower.2 (by decide)
    · exact UInt8.lt_of_le_of_lt hfigure.2 (by decide)
    · exact hplus ▸ (by decide)
    · exact hslash ▸ (by decide)
    · cases h
  · decide

theorem IsCharacter.isBlank_eq_false (h : IsCharacter x) : Bytes.isBlank x = false := by
  rw [Bool.eq_false_iff]
  intro hblank
  simp only [Bytes.isBlank, Bool.or_eq_true, beq_iff_eq] at hblank
  revert h
  rcases hblank with (((rfl | rfl) | rfl) | rfl) | rfl <;> decide

/-! ## Writing -/

theorem isCharacter_of_mem_encode {data : Bytes} (h : x ∈ encode data) : IsCharacter x := by
  fun_induction encode data with
  | case1 => cases h
  | case2 a =>
    have ha := a.toNat_lt
    simp only [List.mem_cons, List.not_mem_nil, or_false] at h
    rcases h with rfl | rfl | rfl | rfl
    · exact isCharacter_digit (by omega)
    · exact isCharacter_digit (by omega)
    · exact isCharacter_padding
    · exact isCharacter_padding
  | case3 a b =>
    have ha := a.toNat_lt
    have hb := b.toNat_lt
    simp only [List.mem_cons, List.not_mem_nil, or_false] at h
    rcases h with rfl | rfl | rfl | rfl
    · exact isCharacter_digit (by omega)
    · exact isCharacter_digit (by omega)
    · exact isCharacter_digit (by omega)
    · exact isCharacter_padding
  | case4 a b c rest ih =>
    have ha := a.toNat_lt
    have hb := b.toNat_lt
    have hc := c.toNat_lt
    simp only [List.mem_cons] at h
    rcases h with rfl | rfl | rfl | rfl | h
    · exact isCharacter_digit (by omega)
    · exact isCharacter_digit (by omega)
    · exact isCharacter_digit (by omega)
    · exact isCharacter_digit (by omega)
    · exact ih h

theorem encode_eq_nil_iff {data : Bytes} : encode data = [] ↔ data = [] := by
  fun_cases encode data <;> simp

/-! ## Reading -/

section

variable {a b c d : Nat}

/-- A group of four digits is read by itself, whatever comes behind it. -/
theorem decode?_group (hw : value? w = some a) (hx : value? x = some b) (hy : value? y = some c)
    (hz : value? z = some d) (rest : Bytes) :
    decode? (w :: x :: y :: z :: rest) =
      (decode? rest).map fun more ↦ UInt8.ofNat (a * 4 + b / 16) :: UInt8.ofNat (b * 16 + c / 4) ::
        UInt8.ofNat (c * 64 + d) :: more := by
  cases rest with
  | nil =>
    -- a last group might be padded, but digits are not
    simp [decode?, decodeLast?, hw, hx, hy, hz, ne_padding_of_value? hy, ne_padding_of_value? hz]
  | cons v rest =>
    rw [decode?, hw, hx, hy, hz]
    · cases decode? (v :: rest) <;> rfl
    · exact fun h ↦ nomatch h

theorem decode?_two_digits (hw : value? w = some a) (hx : value? x = some b) (hzero : b % 16 = 0) :
    decode? [w, x, padding, padding] = some [UInt8.ofNat (a * 4 + b / 16)] := by
  simp [decode?, decodeLast?, hw, hx, hzero]

theorem decode?_three_digits (hw : value? w = some a) (hx : value? x = some b)
    (hy : value? y = some c) (hzero : c % 4 = 0) :
    decode? [w, x, y, padding] =
      some [UInt8.ofNat (a * 4 + b / 16), UInt8.ofNat (b * 16 + c / 4)] := by
  simp [decode?, decodeLast?, hw, hx, hy, hzero, ne_padding_of_value? hy]

end

theorem decode?_encode (data : Bytes) : decode? (encode data) = some data := by
  have hbyte : ∀ {n : Nat} (x : UInt8), n % 256 = x.toNat → UInt8.ofNat n = x := by
    intro n x h
    rw [← UInt8.toNat_inj, UInt8.toNat_ofNat', h]
  fun_induction encode data with
  | case1 => rfl
  | case2 a =>
    have ha := a.toNat_lt
    rw [decode?_two_digits (value?_digit (by omega)) (value?_digit (by omega)) (by omega),
      hbyte a (by omega)]
  | case3 a b =>
    have ha := a.toNat_lt
    have hb := b.toNat_lt
    rw [decode?_three_digits (value?_digit (by omega)) (value?_digit (by omega))
      (value?_digit (by omega)) (by omega), hbyte a (by omega), hbyte b (by omega)]
  | case4 a b c rest ih =>
    have ha := a.toNat_lt
    have hb := b.toNat_lt
    have hc := c.toNat_lt
    rw [decode?_group (value?_digit (by omega)) (value?_digit (by omega)) (value?_digit (by omega))
      (value?_digit (by omega)), ih, Option.map_some, hbyte a (by omega), hbyte b (by omega),
      hbyte c (by omega)]

theorem isCharacter_of_value? (h : value? x = some n) : IsCharacter x :=
  .inl (by rw [h]; rfl)

theorem isCharacter_of_decodeLast? {v : UInt8} {data : Bytes} (h : decodeLast? w x y z = some data)
    (hv : v ∈ [w, x, y, z]) : IsCharacter v := by
  simp only [decodeLast?, Option.bind_eq_bind, Option.bind_eq_some_iff] at h
  obtain ⟨a, hw, b, hx, h⟩ := h
  have hyz : IsCharacter y ∧ IsCharacter z := by
    split at h
    · rename_i hy
      rw [Option.ite_none_right_eq_some] at h
      exact ⟨.inr hy, .inr h.1.1⟩
    · obtain ⟨c, hy, h⟩ := Option.bind_eq_some_iff.1 h
      refine ⟨isCharacter_of_value? hy, ?_⟩
      split at h
      · exact .inr ‹_›
      · obtain ⟨d, hz, -⟩ := Option.bind_eq_some_iff.1 h
        exact isCharacter_of_value? hz
  simp only [List.mem_cons, List.not_mem_nil, or_false] at hv
  rcases hv with rfl | rfl | rfl | rfl
  · exact isCharacter_of_value? hw
  · exact isCharacter_of_value? hx
  · exact hyz.1
  · exact hyz.2

theorem isCharacter_of_decode? {digits data : Bytes} (h : decode? digits = some data)
    (hx : x ∈ digits) : IsCharacter x := by
  fun_induction decode? digits generalizing data with
  | case1 => cases hx
  | case2 => exact isCharacter_of_decodeLast? h hx
  | case3 a b c d rest _ ih =>
    simp only [Option.bind_eq_bind, Option.bind_eq_some_iff] at h
    obtain ⟨_, ha, _, hb, _, hc, _, hd, more, hmore, -⟩ := h
    simp only [List.mem_cons] at hx
    rcases hx with rfl | rfl | rfl | rfl | hx
    · exact isCharacter_of_value? ha
    · exact isCharacter_of_value? hb
    · exact isCharacter_of_value? hc
    · exact isCharacter_of_value? hd
    · exact ih hmore hx
  | case4 => cases h

end SignedFirmware.Pem.Base64
