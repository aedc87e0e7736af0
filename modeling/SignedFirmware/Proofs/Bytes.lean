import Mathlib.Data.List.Induction
import Mathlib.Tactic.Ring
import SignedFirmware.Bytes

/-!
# The number that bytes spell

`Bytes.toNat` reads a byte string as a number, most significant byte first, and `Bytes.ofNat`,
`Bytes.ofNatBE` and `Bytes.padLeft` write one. All about these comes from one fact: byte strings of
the same length that spell the same number are the same (`toNat_inj`). A writer is therefore known
once its length and the number that it spells are.

Least significant byte first, `Bytes.toNatLE` and `Bytes.ofNatLE` undo each other by the recursion
that they share.
-/

namespace SignedFirmware.Bytes

/-! ## Reading -/

@[simp] theorem toNat_nil : toNat [] = 0 := rfl

@[simp] theorem toNat_singleton (x : UInt8) : toNat [x] = x.toNat := by
  simp [toNat]

theorem toNat_concat (b : Bytes) (x : UInt8) : toNat (b ++ [x]) = toNat b * 256 + x.toNat := by
  rw [toNat, List.foldl_append, List.foldl_cons, List.foldl_nil, ← toNat]

theorem toNat_append (a b : Bytes) : toNat (a ++ b) = toNat a * 256 ^ b.length + toNat b := by
  induction b using List.reverseRecOn with
  | nil => simp
  | append_singleton b x ih =>
    rw [← List.append_assoc, toNat_concat, ih, toNat_concat, List.length_append,
      List.length_singleton]
    ring

theorem toNat_cons (x : UInt8) (b : Bytes) :
    toNat (x :: b) = x.toNat * 256 ^ b.length + toNat b := by
  have h := toNat_append [x] b
  rwa [List.singleton_append, toNat_singleton] at h

theorem toNat_lt (b : Bytes) : toNat b < 256 ^ b.length := by
  induction b using List.reverseRecOn with
  | nil => simp
  | append_singleton b x ih =>
    have hx := x.toNat_lt
    rw [toNat_concat, List.length_append, List.length_singleton, Nat.pow_succ]
    omega

/-- Byte strings of one length are told apart by the numbers that they spell. -/
theorem toNat_inj {a b : Bytes} (hlength : a.length = b.length) (h : toNat a = toNat b) :
    a = b := by
  induction a using List.reverseRecOn generalizing b with
  | nil => exact (List.length_eq_zero_iff.1 hlength.symm).symm
  | append_singleton a x ih =>
    obtain rfl | ⟨b, y, rfl⟩ := List.eq_nil_or_concat b
    · simp at hlength
    · rw [List.concat_eq_append] at hlength h ⊢
      rw [toNat_concat, toNat_concat] at h
      have hx := x.toNat_lt
      have hy := y.toNat_lt
      have hab : a = b := ih (by simpa using hlength) (by omega)
      have hxy : x = y := UInt8.toNat_inj.1 (by omega)
      rw [hab, hxy]

@[simp] theorem toNat_replicate_zero (n : Nat) : toNat (List.replicate n 0) = 0 := by
  induction n with
  | zero => rfl
  | succ n ih => rw [List.replicate_succ, toNat_cons, ih]; simp

/-! ## Writing without leading zeros -/

@[simp] theorem ofNat_zero : ofNat 0 = [] := by
  rw [ofNat, ofNat.go, dif_pos rfl]

theorem ofNat_go (n : Nat) (acc : Bytes) : ofNat.go n acc = ofNat n ++ acc := by
  induction n using Nat.strongRecOn generalizing acc with
  | ind n ih =>
    rw [ofNat, ofNat.go.eq_def n acc, ofNat.go.eq_def n []]
    by_cases hn : n = 0
    · rw [dif_pos hn, dif_pos hn, List.nil_append]
    · have hlt : n / 256 < n := by omega
      rw [dif_neg hn, dif_neg hn, ih _ hlt, ih _ hlt [UInt8.ofNat n], List.append_assoc,
        List.singleton_append]

theorem ofNat_of_pos {n : Nat} (h : 0 < n) : ofNat n = ofNat (n / 256) ++ [UInt8.ofNat n] := by
  rw [ofNat, ofNat.go, dif_neg (by omega), ofNat_go]

@[simp] theorem toNat_ofNat (n : Nat) : toNat (ofNat n) = n := by
  induction n using Nat.strongRecOn with
  | ind n ih =>
    by_cases hn : n = 0
    · rw [hn, ofNat_zero, toNat_nil]
    · rw [ofNat_of_pos (by omega), toNat_concat, ih _ (by omega), UInt8.toNat_ofNat']
      omega

theorem length_ofNat_le_iff {n w : Nat} : (ofNat n).length ≤ w ↔ n < 256 ^ w := by
  induction n using Nat.strongRecOn generalizing w with
  | ind n ih =>
    by_cases hn : n = 0
    · simp [hn]
    · rw [ofNat_of_pos (by omega), List.length_append, List.length_singleton]
      cases w with
      | zero => simp; omega
      | succ w =>
        rw [Nat.add_le_add_iff_right, ih _ (by omega), Nat.pow_succ,
          Nat.div_lt_iff_lt_mul (by decide)]

theorem lt_length_ofNat_iff {n w : Nat} : w < (ofNat n).length ↔ 256 ^ w ≤ n := by
  rw [← Nat.not_le, length_ofNat_le_iff, Nat.not_lt]

theorem ne_zero_of_ofNat_eq_cons {n : Nat} {x : UInt8} {b : Bytes} (h : ofNat n = x :: b) :
    x ≠ 0 := by
  rintro rfl
  have hn : n = toNat b := by rw [← toNat_ofNat n, h, toNat_cons]; simp
  have hlow : 256 ^ b.length ≤ n := lt_length_ofNat_iff.1 (by rw [h, List.length_cons]; omega)
  exact Nat.not_lt.2 hlow (hn ▸ toNat_lt b)

theorem length_ofNat_mono {m n : Nat} (h : m ≤ n) : (ofNat m).length ≤ (ofNat n).length :=
  length_ofNat_le_iff.2 (h.trans_lt (length_ofNat_le_iff.1 le_rfl))

theorem length_ofNat_eq {n w : Nat} (hlow : 256 ^ w ≤ n) (hhigh : n < 256 ^ (w + 1)) :
    (ofNat n).length = w + 1 := by
  have h1 : (ofNat n).length ≤ w + 1 := length_ofNat_le_iff.2 hhigh
  have h2 : w < (ofNat n).length := lt_length_ofNat_iff.2 hlow
  omega

/-! ## Writing with a given width -/

theorem toNat_ofNatBE (w n : Nat) : toNat (ofNatBE w n) = n % 256 ^ w := by
  induction w with
  | zero => simp [ofNatBE, Nat.mod_one]
  | succ w ih =>
    have hshift : n >>> (8 * w) = n / 256 ^ w := by
      rw [Nat.shiftRight_eq_div_pow, Nat.pow_mul]
    have hdigit : (UInt8.ofNat (n / 256 ^ w)).toNat = n / 256 ^ w % 256 := UInt8.toNat_ofNat'
    rw [ofNatBE, toNat_cons, ih, length_ofNatBE, hshift, hdigit, Nat.mod_pow_succ, Nat.mul_comm,
      Nat.add_comm]

theorem ofNatBE_inj {w m n : Nat} (hm : m < 256 ^ w) (hn : n < 256 ^ w)
    (h : ofNatBE w m = ofNatBE w n) : m = n := by
  have := congrArg toNat h
  rwa [toNat_ofNatBE, toNat_ofNatBE, Nat.mod_eq_of_lt hm, Nat.mod_eq_of_lt hn] at this

theorem ofNat_eq_ofNatBE {n w : Nat} (hlow : 256 ^ w ≤ n) (hhigh : n < 256 ^ (w + 1)) :
    ofNat n = ofNatBE (w + 1) n := by
  apply toNat_inj
  · rw [length_ofNat_eq hlow hhigh, length_ofNatBE]
  · rw [toNat_ofNat, toNat_ofNatBE, Nat.mod_eq_of_lt hhigh]

/-! ## Least significant byte first -/

theorem toNatLE_lt (b : Bytes) : toNatLE b < 256 ^ b.length := by
  induction b with
  | nil => exact Nat.one_pos
  | cons x b ih =>
    have hx := x.toNat_lt
    rw [toNatLE, List.foldr_cons, ← toNatLE, List.length_cons, Nat.pow_succ]
    omega

theorem toNatLE_ofNatLE (w n : Nat) : toNatLE (ofNatLE w n) = n % 256 ^ w := by
  induction w generalizing n with
  | zero => rw [Nat.pow_zero, Nat.mod_one]; rfl
  | succ w ih =>
    have hdigit : (UInt8.ofNat n).toNat = n % 256 := UInt8.toNat_ofNat'
    rw [ofNatLE, toNatLE, List.foldr_cons, ← toNatLE, ih, hdigit, Nat.pow_succ', Nat.mod_mul]

/-- A number that was read is written as it was. -/
theorem ofNatLE_toNatLE (b : Bytes) : ofNatLE b.length (toNatLE b) = b := by
  induction b with
  | nil => rfl
  | cons x b ih =>
    have hx := x.toNat_lt
    have hsplit : toNatLE (x :: b) = x.toNat + 256 * toNatLE b := rfl
    have hdigit : UInt8.ofNat (x.toNat + 256 * toNatLE b) = x := by
      rw [← UInt8.toNat_inj, UInt8.toNat_ofNat']
      omega
    have hrest : (x.toNat + 256 * toNatLE b) / 256 = toNatLE b := by omega
    rw [hsplit, List.length_cons, ofNatLE, hdigit, hrest, ih]

/-! ## Padding -/

theorem length_padLeft {w : Nat} {b : Bytes} (h : b.length ≤ w) : (padLeft w b).length = w := by
  rw [padLeft, List.length_append, List.length_replicate]
  omega

@[simp] theorem toNat_padLeft (w : Nat) (b : Bytes) : toNat (padLeft w b) = toNat b := by
  rw [padLeft, toNat_append, toNat_replicate_zero]
  omega

/-- Padding brings back the zeros that the shortest spelling leaves out. -/
theorem padLeft_ofNat_toNat (b : Bytes) : padLeft b.length (ofNat (toNat b)) = b := by
  apply toNat_inj
  · exact length_padLeft (length_ofNat_le_iff.2 (toNat_lt b))
  · rw [toNat_padLeft, toNat_ofNat]

end SignedFirmware.Bytes
