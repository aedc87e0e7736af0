import SignedFirmware.Proofs.Envelope

/-!
# Normalizing as a retraction

The wrapped inputs are those that `normalize` leaves alone. It takes every other input that it
accepts to a wrapped one, by a header whose two lengths are exact (`Announces`). So a second time
nothing changes. Nor is anything confused: the header tells the size of what is behind it, and an
input can be found again in its wrapped form (`eq_or_wrap_of_normalize`).
-/

namespace SignedFirmware.Envelope

variable {data other h : Bytes} {e f : Envelope} {n size : Nat}

/-! ## The header -/

/-- A header spells out the size of the bare structure behind it. -/
structure Announces (h : Bytes) (size : Nat) : Prop where
  length : h.length = 19
  /-- It begins a sequence whose length takes two bytes. -/
  opening : h.take 2 = [0x30, 0x82]
  /-- That length is of all that follows it. -/
  outer : Bytes.toNat ((h.drop 2).take 2) = size + 15
  /-- Between the two lengths stand the identifier and the start of a field whose length takes two
  bytes. -/
  middle : (h.drop 4).take 13 = [0x06, 0x09] ++ signedDataOid ++ [0xa0, 0x82]
  /-- That length is of the bare structure. -/
  inner : Bytes.toNat (h.drop 17) = size

/-- Up to the largest size, neither length loses a digit. -/
theorem announces_header (hsize : size ≤ maxBareSize) : Announces (header size) size := by
  rw [maxBareSize, headerSize] at hsize
  have hfields : header size =
      [0x30, 0x82] ++ (Bytes.ofNatBE 2 (size + 15) ++
        (([0x06, 0x09] ++ signedDataOid ++ [0xa0, 0x82]) ++ Bytes.ofNatBE 2 size)) := by
    simp [header, headerSize]
  have hopening : ([0x30, 0x82] : Bytes).length = 2 := rfl
  have houter : (Bytes.ofNatBE 2 (size + 15)).length = 2 := Bytes.length_ofNatBE 2 _
  have hmiddle : ([0x06, 0x09] ++ signedDataOid ++ [0xa0, 0x82]).length = 13 := rfl
  have hdrop4 : (header size).drop 4 =
      ([0x06, 0x09] ++ signedDataOid ++ [0xa0, 0x82]) ++ Bytes.ofNatBE 2 size := by
    rw [hfields, show 4 = 2 + 2 from rfl, ← List.drop_drop, List.drop_left' hopening,
      List.drop_left' houter]
  refine ⟨length_header size, ?_, ?_, ?_, ?_⟩
  · rw [hfields, List.take_left' hopening]
  · rw [hfields, List.drop_left' hopening, List.take_left' houter, Bytes.toNat_ofNatBE]
    omega
  · rw [hdrop4, List.take_left' hmiddle]
  · rw [show 17 = 4 + 13 from rfl, ← List.drop_drop, hdrop4, List.drop_left' hmiddle,
      Bytes.toNat_ofNatBE]
    omega

/-! ## What becomes of an input -/

theorem normalize_eq_tooShort_iff :
    normalize data = .error (.tooShort n) ↔ data.length < detectSize ∧ n = data.length := by
  rw [normalize, wrap]
  by_cases hlow : data.length < detectSize
  · simp [hlow, eq_comm]
  · by_cases hwrapped : isWrapped data = true
    · simp [hlow, hwrapped]
    · by_cases hhigh : data.length ≤ maxBareSize <;> simp [hlow, hwrapped, hhigh, Except.map]

theorem normalize_eq_tooLarge_iff :
    normalize data = .error (.tooLarge n) ↔
      maxBareSize < data.length ∧ isWrapped data = false ∧ n = data.length := by
  constructor
  · intro h
    by_cases hwrapped : isWrapped data = true
    · rw [normalize_of_isWrapped hwrapped] at h
      cases h
    · have hbare : isWrapped data = false := Bool.eq_false_iff.2 hwrapped
      by_cases hhigh : data.length ≤ maxBareSize
      · rw [normalize, wrap, hbare, if_pos hhigh] at h
        split at h <;> cases h
      · rw [normalize_of_large hbare (Nat.not_le.1 hhigh)] at h
        cases h
        exact ⟨Nat.not_le.1 hhigh, hbare, rfl⟩
  · rintro ⟨hlarge, hbare, rfl⟩
    exact normalize_of_large hbare hlarge

theorem normalize_eq_ok_iff :
    normalize data = .ok e ↔
      (isWrapped data = true ∧ e = ⟨true, data⟩) ∨
        (isWrapped data = false ∧ detectSize ≤ data.length ∧ data.length ≤ maxBareSize ∧
          e = ⟨false, header data.length ++ data⟩) := by
  by_cases hwrapped : isWrapped data = true
  · rw [normalize_of_isWrapped hwrapped]
    simp [hwrapped, eq_comm]
  · have hbare : isWrapped data = false := Bool.eq_false_iff.2 hwrapped
    rw [normalize_of_bare hbare]
    simp [hbare]

theorem isWrapped_of_normalize (hnormal : normalize data = .ok e) : isWrapped e.bytes = true := by
  rcases normalize_eq_ok_iff.1 hnormal with ⟨hwrapped, rfl⟩ | ⟨-, -, -, rfl⟩
  · exact hwrapped
  · exact isWrapped_header data.length data

/-! ## Inputs with one wrapped form -/

/-- Of two inputs with one wrapped form, one is that form, or they are the same. -/
theorem eq_or_wrap_of_normalize (hdata : normalize data = .ok e) (hother : normalize other = .ok f)
    (hbytes : e.bytes = f.bytes) :
    data = other ∨ (isWrapped data = false ∧ wrap data = .ok other) ∨
      (isWrapped other = false ∧ wrap other = .ok data) := by
  rcases normalize_eq_ok_iff.1 hdata with ⟨-, rfl⟩ | ⟨hbare, -, hsize, rfl⟩ <;>
    rcases normalize_eq_ok_iff.1 hother with ⟨-, rfl⟩ | ⟨hbare', -, hsize', rfl⟩
  · exact .inl hbytes
  · refine .inr (.inr ⟨hbare', ?_⟩)
    rw [wrap, if_pos hsize']
    exact congrArg Except.ok hbytes.symm
  · refine .inr (.inl ⟨hbare, ?_⟩)
    rw [wrap, if_pos hsize]
    exact congrArg Except.ok hbytes
  · have hlimit : maxBareSize < 0x10000 := by decide
    exact .inl (header_append_inj (hsize.trans_lt hlimit) (hsize'.trans_lt hlimit) hbytes).2

/-- **Normalizing is a retraction onto the wrapped inputs.** Input is too short below 17 bytes, and
too large if it is bare and has more than 65516. All other input has a wrapped form: itself, or
itself behind a header with its exact size. A wrapped form is wrapped and is its own wrapped form.
Different inputs have the same one only if one of them is bare and the other wraps it. -/
theorem normalize_retraction (data : Bytes) :
    (∀ n, normalize data = .error (.tooShort n) ↔ data.length < 17 ∧ n = data.length) ∧
      (∀ n, normalize data = .error (.tooLarge n) ↔
        65516 < data.length ∧ isWrapped data = false ∧ n = data.length) ∧
      (17 ≤ data.length → (isWrapped data = true ∨ data.length ≤ 65516) →
        ∃ e, normalize data = .ok e ∧ e.wasWrapped = isWrapped data ∧
          (isWrapped data = true → e.bytes = data) ∧
          (isWrapped data = false → ∃ h, Announces h data.length ∧ e.bytes = h ++ data)) ∧
      (∀ e, normalize data = .ok e →
        isWrapped e.bytes = true ∧ normalize e.bytes = .ok ⟨true, e.bytes⟩) ∧
      ∀ other e f, normalize data = .ok e → normalize other = .ok f → e.bytes = f.bytes →
        data = other ∨ (isWrapped data = false ∧ wrap data = .ok other) ∨
          (isWrapped other = false ∧ wrap other = .ok data) := by
  refine ⟨fun n ↦ normalize_eq_tooShort_iff, fun n ↦ normalize_eq_tooLarge_iff, ?_, ?_, ?_⟩
  · intro hlow hform
    by_cases hwrapped : isWrapped data = true
    · refine ⟨⟨true, data⟩, normalize_of_isWrapped hwrapped, hwrapped.symm, fun _ ↦ rfl, ?_⟩
      intro hbare
      exact absurd hwrapped (Bool.eq_false_iff.1 hbare)
    · have hbare : isWrapped data = false := Bool.eq_false_iff.2 hwrapped
      have hsize : data.length ≤ maxBareSize := hform.resolve_left hwrapped
      refine ⟨_, (normalize_of_bare hbare).2 ⟨hlow, hsize, rfl⟩, hbare.symm, ?_, ?_⟩
      · intro hcontra
        exact absurd hcontra hwrapped
      · intro _
        exact ⟨header data.length, announces_header hsize, rfl⟩
  · intro e hnormal
    have hwrapped := isWrapped_of_normalize hnormal
    exact ⟨hwrapped, normalize_of_isWrapped hwrapped⟩
  · intro other e f hdata hother hbytes
    exact eq_or_wrap_of_normalize hdata hother hbytes

end SignedFirmware.Envelope
