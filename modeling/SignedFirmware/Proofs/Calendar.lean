import Mathlib.Data.Nat.ModEq
import SignedFirmware.Calendar

/-!
# A count of seconds has a date and time

`DateTime.ofUnix?` looks for the year and then for the month that a day falls in. Both searches end
at the last one that has begun (`yearOfDay_spec`, `monthOfDay_spec`), so the day is within the year
and within the month, and the date and time that come out of it stand for the seconds that went in
(`isValid_of_ofUnix?`).
-/

namespace SignedFirmware

/-- A reading of a clock is early enough for a date. Within the last second of the calendar, only
the start of it is. -/
def Instant.IsOnCalendar (i : Instant) : Prop :=
  i.nanoseconds ≤ DateTime.maxUnix * Instant.perSecond

instance (i : Instant) : Decidable i.IsOnCalendar := inferInstanceAs (Decidable (_ ≤ _))

theorem Instant.IsOnCalendar.seconds_le {i : Instant} (h : i.IsOnCalendar) :
    i.seconds ≤ DateTime.maxUnix :=
  Nat.div_le_of_le_mul (h.trans_eq (Nat.mul_comm _ _))

theorem Instant.seconds_later (now : Instant) (seconds : Nat) :
    (now.later seconds).seconds = now.seconds + seconds :=
  Nat.add_mul_div_right _ _ (by decide)

namespace DateTime

variable {year month days seconds n : Nat} {t : DateTime}

/-! ## Years -/

def daysInYear (year : Nat) : Nat := if isLeapYear year then 366 else 365

theorem daysInYear_bounds (year : Nat) : 365 ≤ daysInYear year ∧ daysInYear year ≤ 366 := by
  rw [daysInYear]
  split <;> decide

/-- A count of every `k`-th year goes up behind each of these years. -/
theorem div_succ_of_dvd {k : Nat} (start : Nat) (h : start < year) (hstart : k ∣ start) :
    (year + 1 - 1 - start) / k = (year - 1 - start) / k + if year % k = 0 then 1 else 0 := by
  have hnext : year + 1 - 1 - start = year - 1 - start + 1 := by omega
  have hbehind : year - 1 - start + 1 = year - start := by omega
  have hdvd : k ∣ year - start ↔ year % k = 0 := by
    rw [Nat.dvd_sub_iff_left h.le hstart, Nat.dvd_iff_mod_eq_zero]
  rw [hnext, Nat.succ_div, hbehind]
  simp only [hdvd]

theorem daysBeforeYear_succ (h : 1970 ≤ year) :
    daysBeforeYear (year + 1) = daysBeforeYear year + daysInYear year := by
  have hdays : (year + 1 - 1970) * 365 = (year - 1970) * 365 + 365 := by omega
  have hleap : daysInYear year =
      365 + (if year % 4 = 0 then 1 else 0) - (if year % 100 = 0 then 1 else 0) +
        if year % 400 = 0 then 1 else 0 := by
    simp only [daysInYear, isLeapYear, Bool.and_eq_true, Bool.or_eq_true, beq_iff_eq, bne_iff_ne]
    split_ifs <;> omega
  have hless : (year - 1 - 1900) / 100 ≤ (year - 1970) * 365 + (year - 1 - 1968) / 4 := by omega
  have hone : (if year % 100 = 0 then 1 else 0) ≤ 1 := by split <;> decide
  rw [daysBeforeYear, daysBeforeYear, hleap, hdays, div_succ_of_dvd 1968 (by omega) (by decide),
    div_succ_of_dvd 1900 (by omega) (by decide), div_succ_of_dvd 1600 (by omega) (by decide)]
  omega

theorem daysBeforeYear_bounds (h : 1970 ≤ year) :
    365 * (year - 1970) ≤ daysBeforeYear year ∧ daysBeforeYear year ≤ 366 * (year - 1970) := by
  induction year, h using Nat.le_induction with
  | base => decide
  | succ year hyear ih =>
    have hdays := daysInYear_bounds year
    rw [daysBeforeYear_succ hyear, Nat.succ_sub hyear, Nat.mul_succ, Nat.mul_succ]
    exact ⟨Nat.add_le_add ih.1 hdays.1, Nat.add_le_add ih.2 hdays.2⟩

theorem daysBeforeYear_le {later : Nat} (h : 1970 ≤ year) (hlater : year ≤ later) :
    daysBeforeYear year ≤ daysBeforeYear later := by
  induction later, hlater using Nat.le_induction with
  | base => exact le_rfl
  | succ later hlater ih =>
    rw [daysBeforeYear_succ (h.trans hlater)]
    exact ih.trans (Nat.le_add_right _ _)

/-- The search ends at a year that has begun, and at the last one if it may look far enough. -/
theorem yearOfDay_spec (hstart : 1970 ≤ year) (hbegun : daysBeforeYear year ≤ days)
    (hend : days < daysBeforeYear (year + n + 1)) :
    1970 ≤ yearOfDay days year n ∧ daysBeforeYear (yearOfDay days year n) ≤ days ∧
      days < daysBeforeYear (yearOfDay days year n + 1) := by
  induction n generalizing year with
  | zero => exact ⟨hstart, hbegun, hend⟩
  | succ n ih =>
    rw [yearOfDay]
    split
    · rename_i hnext
      exact ih (Nat.le_succ_of_le hstart) hnext (by rwa [Nat.add_right_comm year 1 n])
    · rename_i hnext
      exact ⟨hstart, hbegun, Nat.not_le.1 hnext⟩

/-- A day falls in the year that `ofUnix?` finds for it. It looks from a year on that would be right
if all years were long, and up to one that would be right if all were short. -/
theorem yearOfDay_of_day (days : Nat) :
    ∃ year, yearOfDay days (1970 + days / 366) (days / 365 - days / 366 + 1) = year ∧ 1970 ≤ year ∧
      daysBeforeYear year ≤ days ∧ days < daysBeforeYear (year + 1) := by
  have hstart : daysBeforeYear (1970 + days / 366) ≤ days := by
    have hlong := (daysBeforeYear_bounds (Nat.le_add_right 1970 (days / 366))).2
    rw [Nat.add_sub_cancel_left] at hlong
    exact hlong.trans (Nat.mul_div_le days 366)
  have hend : days < daysBeforeYear (1970 + days / 366 + (days / 365 - days / 366 + 1) + 1) := by
    have hshort := (daysBeforeYear_bounds (Nat.le_add_right 1970 (days / 365 + 2))).1
    have hyears :
        1970 + days / 366 + (days / 365 - days / 366 + 1) + 1 = 1970 + (days / 365 + 2) := by
      omega
    rw [Nat.add_sub_cancel_left] at hshort
    rw [hyears]
    omega
  exact ⟨_, rfl, yearOfDay_spec (Nat.le_add_right 1970 _) hstart hend⟩

/-! ## Months -/

theorem daysBeforeMonth_succ (h : 1 ≤ month) :
    daysBeforeMonth year (month + 1) = daysBeforeMonth year month + daysInMonth year month := by
  obtain ⟨month, rfl⟩ := Nat.exists_eq_add_of_le' h
  rw [daysBeforeMonth, daysBeforeMonth, Nat.add_sub_cancel, Nat.add_sub_cancel, List.range_succ,
    List.foldl_append, List.foldl_cons, List.foldl_nil]

theorem daysBeforeMonth_thirteen (year : Nat) : daysBeforeMonth year 13 = daysInYear year := by
  simp only [daysBeforeMonth, daysInYear, daysInMonth, List.range, List.range.loop, List.foldl]
  split <;> rfl

/-- The search ends at the last of the months that has begun, if the day is before their end. -/
theorem monthOfDay_spec (hn : 1 ≤ n) (hend : days < daysBeforeMonth year (n + 1)) :
    1 ≤ monthOfDay year days n ∧ monthOfDay year days n ≤ n ∧
      daysBeforeMonth year (monthOfDay year days n) ≤ days ∧
      days < daysBeforeMonth year (monthOfDay year days n + 1) := by
  induction n, hn using Nat.le_induction with
  | base =>
    have hfound : monthOfDay year days 1 = 1 := ite_self 1
    rw [hfound]
    exact ⟨le_rfl, le_rfl, Nat.zero_le days, hend⟩
  | succ n hn ih =>
    rw [monthOfDay]
    split
    · rename_i hbegun
      exact ⟨Nat.le_add_left 1 n, le_rfl, hbegun, hend⟩
    · rename_i hbegun
      obtain ⟨hfirst, hlast, hmonth⟩ := ih (Nat.not_le.1 hbegun)
      exact ⟨hfirst, Nat.le_succ_of_le hlast, hmonth⟩

/-! ## Dates and times -/

/-- The date and time that a count of seconds is brought to are on the calendar and on the clock,
and stand for this count. -/
theorem isValid_of_ofUnix? (h : ofUnix? seconds = some t) : t.IsValid ∧ t.toUnix = seconds := by
  rw [ofUnix?, Option.ite_none_right_eq_some, Option.some.injEq] at h
  obtain ⟨hseconds, rfl⟩ := h
  have hlast : seconds / 86400 < daysBeforeYear 10000 :=
    lt_of_le_of_lt (Nat.div_le_div_right hseconds) (by decide)
  obtain ⟨year, hyear, hfirst, hbegun, hover⟩ := yearOfDay_of_day (seconds / 86400)
  have hyears : year ≤ 9999 := by
    by_contra hlate
    exact absurd ((daysBeforeYear_le (by decide) (Nat.not_le.1 hlate)).trans hbegun)
      (Nat.not_le.2 hlast)
  have hmonths : seconds / 86400 - daysBeforeYear year < daysBeforeMonth year (12 + 1) := by
    rw [daysBeforeYear_succ hfirst] at hover
    rw [daysBeforeMonth_thirteen]
    omega
  obtain ⟨hjanuary, hdecember, hmonth, hnext⟩ := monthOfDay_spec (by decide) hmonths
  simp only [hyear]
  rw [daysBeforeMonth_succ hjanuary] at hnext
  generalize monthOfDay year (seconds / 86400 - daysBeforeYear year) 12 = month at *
  constructor
  · refine ⟨hfirst, hyears, hjanuary, hdecember, ?_, ?_, ?_, ?_, ?_⟩ <;> dsimp only <;> omega
  · simp only [toUnix]
    omega

end DateTime

end SignedFirmware
