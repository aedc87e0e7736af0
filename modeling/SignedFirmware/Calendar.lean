/-!
# Dates and times

A time of day on a date of the Gregorian calendar, from 1970 to 9999, in universal time and without
leap seconds. `DateTime.toUnix` counts the seconds since the start of 1970, and `DateTime.ofUnix?`
finds the date and time for such a count. A clock is read more finely, as an `Instant`.
-/

namespace SignedFirmware

structure DateTime where
  (year month day hour minute second : Nat)
  deriving DecidableEq, Repr, Inhabited

namespace DateTime

def isLeapYear (year : Nat) : Bool := year % 4 == 0 && (year % 100 != 0 || year % 400 == 0)

def daysInMonth (year month : Nat) : Nat :=
  match month with
  | 2 => if isLeapYear year then 29 else 28
  | 4 | 6 | 9 | 11 => 30
  | _ => 31

/-- The number of days from the start of 1970 to the start of a year. Every fourth year is a leap
year, but not every hundredth, and yet every four-hundredth. -/
def daysBeforeYear (year : Nat) : Nat :=
  (year - 1970) * 365 + (year - 1 - 1968) / 4 - (year - 1 - 1900) / 100 + (year - 1 - 1600) / 400

def daysBeforeMonth (year month : Nat) : Nat :=
  (List.range (month - 1)).foldl (fun days m ↦ days + daysInMonth year (m + 1)) 0

/-- Whether the date is in the calendar and the time on the clock. -/
def IsValid (t : DateTime) : Prop :=
  1970 ≤ t.year ∧ t.year ≤ 9999 ∧ 1 ≤ t.month ∧ t.month ≤ 12 ∧ 1 ≤ t.day ∧
    t.day ≤ daysInMonth t.year t.month ∧ t.hour ≤ 23 ∧ t.minute ≤ 59 ∧ t.second ≤ 59

instance (t : DateTime) : Decidable t.IsValid := by unfold IsValid; infer_instance

/-- The seconds since the start of 1970. -/
def toUnix (t : DateTime) : Nat :=
  (daysBeforeYear t.year + daysBeforeMonth t.year t.month + (t.day - 1)) * 86400
    + t.hour * 3600 + t.minute * 60 + t.second

/-- The last second that a time can be. -/
def maxUnix : Nat := 253402300799

/-- The last of the first `n` months that has begun after `days` days of the year. -/
def monthOfDay (year days : Nat) : Nat → Nat
  | 0 => 1
  | n + 1 => if daysBeforeMonth year (n + 1) ≤ days then n + 1 else monthOfDay year days n

/-- The last of the years from `year` on that has begun `days` days after the start of 1970, looking
at most `n` years ahead. -/
def yearOfDay (days year : Nat) : Nat → Nat
  | 0 => year
  | n + 1 => if daysBeforeYear (year + 1) ≤ days then yearOfDay days (year + 1) n else year

/-- The date and time a number of seconds after the start of 1970, up to the end of 9999. -/
def ofUnix? (seconds : Nat) : Option DateTime :=
  if seconds ≤ maxUnix then
    let days := seconds / 86400
    let time := seconds % 86400
    let start := 1970 + days / 366
    let year := yearOfDay days start (days / 365 - days / 366 + 1)
    let days := days - daysBeforeYear year
    let month := monthOfDay year days 12
    some
      { year, month
        day := days - daysBeforeMonth year month + 1
        hour := time / 3600
        minute := time / 60 % 60
        second := time % 60 }
  else none

end DateTime

/-- A reading of a clock. Readings before 1970 are outside this model. -/
structure Instant where
  /-- The nanoseconds since the start of 1970. -/
  nanoseconds : Nat
  deriving DecidableEq, Repr, Inhabited

namespace Instant

/-- The nanoseconds of a second. -/
def perSecond : Nat := 1000000000

def seconds (i : Instant) : Nat := i.nanoseconds / perSecond

/-- The reading at the start of a second. -/
def ofSeconds (n : Nat) : Instant := ⟨n * perSecond⟩

/-- The reading some seconds later. -/
def later (i : Instant) (seconds : Nat) : Instant := ⟨i.nanoseconds + seconds * perSecond⟩

end Instant

end SignedFirmware
