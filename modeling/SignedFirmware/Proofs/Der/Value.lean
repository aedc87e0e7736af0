import SignedFirmware.Der.Value
import SignedFirmware.Proofs.Der.Fields

/-!
# Plain values and their elements

What the readers of plain values accept. A number has one spelling, so a number below 128 is
spelled with exactly one octet.
-/

namespace SignedFirmware.Der

/-- Two octets or more spell a number of at least 128. -/
theorem le_toNat_of_isCanonicalInteger {a b : UInt8} {rest : Bytes}
    (hcanonical : isCanonicalInteger (a :: b :: rest) = true) :
    0x80 ≤ Bytes.toNat (a :: b :: rest) := by
  have hpow : 0 < 256 ^ rest.length := Nat.pow_pos (by decide)
  rw [Bytes.toNat_cons, Bytes.toNat_cons, List.length_cons, Nat.pow_succ]
  by_cases ha : a = 0
  · have hb : 0x80 ≤ b.toNat := by
      simpa [isCanonicalInteger, ha, UInt8.le_iff_toNat_le] using hcanonical
    have := Nat.le_mul_of_pos_right b.toNat hpow
    omega
  · have ha : 0 < a.toNat := by
      rw [Nat.pos_iff_ne_zero]
      exact fun h ↦ ha (UInt8.toNat_inj.1 h)
    have := Nat.le_mul_of_pos_left (256 ^ rest.length * 256) ha
    omega

/-- The octets of a natural number are their shortest spelling, and spell no negative number. -/
theorem natContent_spec (n : Nat) :
    isCanonicalInteger (natContent n) = true ∧ (natContent n).headD 0 < 0x80 ∧
      Bytes.toNat (natContent n) = n := by
  have hn := Bytes.toNat_ofNat n
  rw [natContent]
  cases hdigits : Bytes.ofNat n with
  | nil =>
    rw [hdigits] at hn
    exact ⟨rfl, by decide, hn⟩
  | cons x rest =>
    rw [hdigits] at hn
    have hx : x ≠ 0 := Bytes.ne_zero_of_ofNat_eq_cons hdigits
    dsimp only
    split
    · rename_i hhigh
      have hzero : (0 : UInt8) < 0x80 := by decide
      refine ⟨?_, hzero, by rw [Bytes.toNat_cons, hn]; simp⟩
      simp [isCanonicalInteger, UInt8.not_lt.2 hhigh]
    · rename_i hlow
      refine ⟨?_, UInt8.not_le.1 hlow, hn⟩
      have hff : x ≠ 0xff := fun h ↦ hlow (h ▸ by decide)
      cases rest with
      | nil => rfl
      | cons y rest => simp [isCanonicalInteger, hx, hff]

theorem length_natContent_le (n : Nat) : (natContent n).length ≤ (Bytes.ofNat n).length + 1 := by
  rw [natContent]
  cases Bytes.ofNat n with
  | nil => rfl
  | cons x rest =>
    dsimp only
    split
    · rfl
    · exact Nat.le_succ _

theorem nat?_ofNat (n : Nat) : nat? (ofNat n) = some n := by
  obtain ⟨hcanonical, hhead, hn⟩ := natContent_spec n
  have hcontent : integerContent? (ofNat n) = some (natContent n) := if_pos ⟨rfl, hcanonical⟩
  rw [nat?, hcontent]
  exact (if_pos hhead).trans (congrArg some hn)

/-- A number below a small limit is spelled with one octet. -/
theorem eq_of_natBelow? {limit n : Nat} {e : Element} (hlimit : limit ≤ 0x80)
    (h : natBelow? limit e = some n) : ∃ x : UInt8, e = ⟨Tag.integer, [x]⟩ ∧ x.toNat < limit := by
  obtain ⟨tag, content⟩ := e
  simp only [natBelow?, nat?, integerContent?, Option.bind_eq_bind, Option.bind_eq_some_iff,
    Option.ite_none_right_eq_some, Option.some.injEq] at h
  obtain ⟨m, ⟨_, ⟨⟨rfl, hcanonical⟩, rfl⟩, -, rfl⟩, hlt, -⟩ := h
  match content with
  | [] => simp [isCanonicalInteger] at hcanonical
  | [x] => exact ⟨x, rfl, by simpa using hlt⟩
  | a :: b :: rest =>
    have := le_toNat_of_isCanonicalInteger hcanonical
    omega

/-! ## Truth values and octets -/

theorem bool?_eq_some_iff {e : Element} {b : Bool} : bool? e = some b ↔ e = ofBool b := by
  constructor
  · intro h
    rw [bool?.eq_def] at h
    split at h
    · cases h
      rfl
    · cases h
      rfl
    · cases h
  · rintro rfl
    cases b <;> rfl

theorem octets?_eq_some_iff {e : Element} {b : Bytes} : octets? e = some b ↔ e = ofOctets b := by
  obtain ⟨tag, content⟩ := e
  rw [octets?, ofOctets, Option.ite_none_right_eq_some, Option.some.injEq, Element.mk.injEq]

/-! ## Strings of bits -/

theorem bitString?_eq_some_iff {e : Element} {b : BitString} :
    bitString? e = some b ↔ e = ofBitString b ∧ BitString.ofContent? b.content = some b := by
  have hcontent : ∀ content, BitString.ofContent? content = some b → b.content = content := by
    intro content h
    cases content with
    | nil => cases h
    | cons unused octets =>
      rw [BitString.ofContent?, Option.ite_none_right_eq_some, Option.some.injEq] at h
      obtain ⟨-, rfl⟩ := h
      rfl
  rw [bitString?, Option.ite_none_right_eq_some]
  constructor
  · rintro ⟨htag, h⟩
    have hsame := hcontent e.content h
    rw [ofBitString, hsame, ← htag]
    exact ⟨rfl, h⟩
  · rintro ⟨rfl, h⟩
    exact ⟨rfl, h⟩

/-! ## Object identifiers -/

/-- An identifier that was read is the one with the content octets. -/
theorem content_of_ofContent? {content : Bytes} {o : Oid} (h : Oid.ofContent? content = some o) :
    o.content = content := by
  cases content with
  | nil => simp [Oid.ofContent?] at h
  | cons first rest =>
    rw [Oid.ofContent?, Option.ite_none_right_eq_some, Option.some.injEq] at h
    rw [← h.2]

@[simp] theorem ofOid_tag (o : Oid) : (ofOid o).tag = Tag.oid := rfl

theorem oid?_eq_some_iff {e : Element} {o : Oid} :
    oid? e = some o ↔ e = ofOid o ∧ Oid.ofContent? o.content = some o := by
  rw [oid?, Option.ite_none_right_eq_some]
  constructor
  · rintro ⟨htag, h⟩
    have hcontent := content_of_ofContent? h
    rw [ofOid, hcontent, ← htag]
    exact ⟨rfl, h⟩
  · rintro ⟨rfl, h⟩
    exact ⟨rfl, h⟩

end SignedFirmware.Der
