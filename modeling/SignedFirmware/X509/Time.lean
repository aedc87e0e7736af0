import SignedFirmware.Calendar
import SignedFirmware.Der.Value

/-!
# Times of certificates

A certificate gives a time in one of two spellings: with two digits of the year, which then lies
between 1950 and 2049, or with four. Both end in seconds and the letter Z, and both only reach back
to 1970.
-/

namespace SignedFirmware.X509

/-- The two spellings of a time. -/
inductive TimeForm where
  /-- The year has two digits. -/
  | utc
  /-- The year has four digits. -/
  | generalized
  deriving DecidableEq, Repr

/-- A time and how it is spelled. -/
structure Time where
  form : TimeForm
  value : DateTime
  deriving DecidableEq, Repr

namespace Time

/-- The last year that two digits can give. -/
def maxUtcYear : Nat := 2049

def twoDigits? (a b : UInt8) : Option Nat :=
  if 0x30 ≤ a ∧ a ≤ 0x39 ∧ 0x30 ≤ b ∧ b ≤ 0x39 then
    some (10 * (a.toNat - 0x30) + (b.toNat - 0x30))
  else none

def twoDigits (n : Nat) : Bytes := [UInt8.ofNat (0x30 + n / 10 % 10), UInt8.ofNat (0x30 + n % 10)]

/-- Reads pairs of decimal digits and the letter Z after them. -/
def pairs? : Bytes → Option (List Nat)
  | [0x5a] => some []
  | a :: b :: rest => do
    let n ← twoDigits? a b
    let more ← pairs? rest
    pure (n :: more)
  | _ => none

/-- A time on the calendar. -/
def checked? (form : TimeForm) (t : DateTime) : Option Time :=
  if t.IsValid then some ⟨form, t⟩ else none

/-- Reads a time in either spelling. -/
def ofElement? : Der.Decoder Time := fun e ↦ do
  let pairs ← pairs? e.content
  if e.tag = Der.Tag.utcTime then
    match pairs with
    | [year, month, day, hour, minute, second] =>
      let year := if 50 ≤ year then 1900 + year else 2000 + year
      checked? .utc ⟨year, month, day, hour, minute, second⟩
    | _ => none
  else if e.tag = Der.Tag.generalizedTime then
    match pairs with
    | [century, year, month, day, hour, minute, second] =>
      checked? .generalized ⟨100 * century + year, month, day, hour, minute, second⟩
    | _ => none
  else none

def toElement (t : Time) : Der.Element :=
  let tail := [t.value.month, t.value.day, t.value.hour, t.value.minute, t.value.second].flatMap
    twoDigits ++ [0x5a]
  match t.form with
  | .utc => ⟨Der.Tag.utcTime, twoDigits (t.value.year % 100) ++ tail⟩
  | .generalized =>
    ⟨Der.Tag.generalizedTime,
      twoDigits (t.value.year / 100) ++ twoDigits (t.value.year % 100) ++ tail⟩

/-- Whether an element is a time of either spelling. -/
def accepts (tag : Der.Tag) : Bool := tag == Der.Tag.utcTime || tag == Der.Tag.generalizedTime

/-- The seconds since the start of 1970. -/
def toUnix (t : Time) : Nat := t.value.toUnix

/-- The time a number of seconds after the start of 1970, with two digits of the year. Times before
1970 and after 2049 have no such spelling. -/
def utcOfUnix? (seconds : Int) : Option Time :=
  match seconds with
  | .negSucc _ => none
  | .ofNat n => do
    let t ← DateTime.ofUnix? n
    if t.year ≤ maxUtcYear then some ⟨.utc, t⟩ else none

/-- The time a number of seconds after the start of 1970, with two digits of the year as long as
these suffice and with four after that. -/
def ofUnix? (seconds : Nat) : Option Time := do
  let t ← DateTime.ofUnix? seconds
  pure ⟨if t.year ≤ maxUtcYear then .utc else .generalized, t⟩

/-- The time that a clock shows, to the second. A reading within the last second of the calendar is
too late, unless it is at the start of it. -/
def ofInstant? (i : Instant) : Option Time :=
  if i.nanoseconds ≤ DateTime.maxUnix * Instant.perSecond then ofUnix? i.seconds else none

end Time

end SignedFirmware.X509
