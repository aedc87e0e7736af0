import SignedFirmware.Proofs.Calendar
import SignedFirmware.Proofs.Der.Fields
import SignedFirmware.X509.Time

/-!
# Times have one spelling

The form of a time is kept with it, so a time that was read is spelled as it was. A time that a
clock gave is on the calendar and is the second that the clock showed.
-/

namespace SignedFirmware.X509.Time

open Der (Element)

/-! ## Digits -/

theorem twoDigits_of_twoDigits? {a b : UInt8} {n : Nat} (h : twoDigits? a b = some n) :
    n < 100 ∧ twoDigits n = [a, b] := by
  rw [twoDigits?, Option.ite_none_right_eq_some, Option.some.injEq] at h
  obtain ⟨⟨ha, ha', hb, hb'⟩, rfl⟩ := h
  simp only [UInt8.le_iff_toNat_le, UInt8.reduceToNat] at ha ha' hb hb'
  have hhigh : 0x30 + (10 * (a.toNat - 0x30) + (b.toNat - 0x30)) / 10 % 10 = a.toNat := by omega
  have hlow : 0x30 + (10 * (a.toNat - 0x30) + (b.toNat - 0x30)) % 10 = b.toNat := by omega
  refine ⟨by omega, ?_⟩
  rw [twoDigits, hhigh, hlow, UInt8.ofNat_toNat, UInt8.ofNat_toNat]

theorem eq_of_pairs? {data : Bytes} {ns : List Nat} (h : pairs? data = some ns) :
    (∀ n ∈ ns, n < 100) ∧ data = ns.flatMap twoDigits ++ [0x5a] := by
  fun_induction pairs? data generalizing ns with
  | case1 =>
    cases h
    simp
  | case2 a b rest ih =>
    simp only [Option.bind_eq_bind, Option.pure_def, Option.bind_eq_some_iff,
      Option.some.injEq] at h
    obtain ⟨n, hn, more, hmore, rfl⟩ := h
    obtain ⟨hlt, hdigits⟩ := twoDigits_of_twoDigits? hn
    obtain ⟨hall, hrest⟩ := ih hmore
    refine ⟨List.forall_mem_cons.2 ⟨hlt, hall⟩, ?_⟩
    rw [List.flatMap_cons, hdigits, hrest]
    simp
  | case3 => cases h

/-! ## Times -/

theorem eq_of_checked? {form : TimeForm} {value : DateTime} {t : Time}
    (h : checked? form value = some t) : t = ⟨form, value⟩ := by
  rw [checked?, Option.ite_none_right_eq_some, Option.some.injEq] at h
  exact h.2.symm

theorem eq_toElement_of_ofElement? {e : Element} {t : Time} (h : ofElement? e = some t) :
    e = t.toElement := by
  obtain ⟨tag, content⟩ := e
  simp only [ofElement?, Option.bind_eq_bind, Option.bind_eq_some_iff] at h
  obtain ⟨pairs, hpairs, h⟩ := h
  obtain ⟨hlt, hcontent⟩ := eq_of_pairs? hpairs
  split at h
  · rename_i htag
    split at h
    · rename_i year month day hour minute second
      obtain rfl := eq_of_checked? h
      have hyear : year < 100 := hlt year List.mem_cons_self
      -- the century is not spelled, but the two digits tell it
      have hdigits : (if 50 ≤ year then 1900 + year else 2000 + year) % 100 = year := by
        split <;> omega
      simp [toElement, htag, hcontent, hdigits]
    · cases h
  · split at h
    · rename_i htag
      split at h
      · rename_i century year month day hour minute second
        obtain rfl := eq_of_checked? h
        have hyear : year < 100 := hlt year (by simp)
        have hhigh : (100 * century + year) / 100 = century := by omega
        have hlow : (100 * century + year) % 100 = year := by omega
        simp [toElement, htag, hcontent, hhigh, hlow]
      · cases h
    · cases h

/-! ## Clocks -/

/-- A time that a clock gave is on the calendar, and it is the second that the clock showed. -/
theorem isValid_of_ofInstant? {i : Instant} {t : Time} (h : ofInstant? i = some t) :
    t.value.IsValid ∧ t.toUnix = i.seconds := by
  simp only [ofInstant?, ofUnix?, Option.ite_none_right_eq_some, Option.bind_eq_bind,
    Option.pure_def, Option.bind_eq_some_iff, Option.some.injEq] at h
  obtain ⟨-, value, hvalue, rfl⟩ := h
  exact DateTime.isValid_of_ofUnix? hvalue

theorem isSome_ofInstant?_iff {i : Instant} : (ofInstant? i).isSome ↔ i.IsOnCalendar := by
  by_cases h : i.IsOnCalendar
  · have hread : ofInstant? i = ofUnix? i.seconds := if_pos h
    simp [hread, ofUnix?, DateTime.ofUnix?, h.seconds_le, h]
  · have hread : ofInstant? i = none := if_neg h
    simp [hread, h]

end SignedFirmware.X509.Time
