import Mathlib.Data.Nat.Notation
import Mathlib.Order.Nat
import Mathlib.Data.List.Basic

/-!
# Points in time

A point in time is a number of microseconds of coordinated universal time since
the first instant of the year one. Stored times are compared; their text enters
digests and answers. The text is the extended ISO form with an explicit zero
offset, in which the fraction is left out when it is zero.
-/

namespace Immutavault.Timestamps

/-- Microseconds since 0001-01-01T00:00:00+00:00. -/
abbrev Timestamp := ℕ

def second : Timestamp := 1000000

def minute : Timestamp := 60 * second

def day : Timestamp := 24 * 60 * minute

/-- A time so many days later. -/
def addDays (time : Timestamp) (days : ℕ) : Timestamp := time + days * day

/-- Decimal digits of a number, at least the given count. -/
def padded (width value : ℕ) : String :=
  String.ofList (List.replicate (width - (Nat.toDigits 10 value).length) '0' ++
    Nat.toDigits 10 value)

def isLeap (year : ℕ) : Bool := year % 4 = 0 && (year % 100 ≠ 0 || year % 400 = 0)

def daysInMonth (year month : ℕ) : ℕ :=
  if month = 2 then (if isLeap year then 29 else 28)
  else if month = 4 ∨ month = 6 ∨ month = 9 ∨ month = 11 then 30
  else 31

/-- The month and the day of the month of a day counted from the first of the
given month. -/
def monthDay (year month offset : ℕ) : ℕ → ℕ × ℕ
  | 0 => (month, offset + 1)
  | fuel + 1 =>
    if offset < daysInMonth year month then (month, offset + 1)
    else monthDay year (month + 1) (offset - daysInMonth year month) fuel

/-- Year, month and day of a day counted from 0001-01-01. -/
def civil (ordinal : ℕ) : ℕ × ℕ × ℕ :=
  let cycles := ordinal / 146097
  let inCycle := ordinal % 146097
  let centuries := min (inCycle / 36524) 3
  let inCentury := inCycle - centuries * 36524
  let quads := inCentury / 1461
  let inQuad := inCentury % 1461
  let years := min (inQuad / 365) 3
  let year := 400 * cycles + 100 * centuries + 4 * quads + years + 1
  (year, monthDay year 1 (inQuad - years * 365) 11)

/-- The ISO text of a time. -/
def isoformat (time : Timestamp) : String :=
  let (year, month, dayOfMonth) := civil (time / day)
  let seconds := time / second % 86400
  padded 4 year ++ "-" ++ padded 2 month ++ "-" ++ padded 2 dayOfMonth ++ "T" ++
    padded 2 (seconds / 3600) ++ ":" ++ padded 2 (seconds / 60 % 60) ++ ":" ++
    padded 2 (seconds % 60) ++
    (if time % second = 0 then "" else "." ++ padded 6 (time % second)) ++ "+00:00"

/-- The compact text that names directories and restored machines. -/
def stamp (time : Timestamp) : String :=
  let (year, month, dayOfMonth) := civil (time / day)
  let seconds := time / second % 86400
  padded 4 year ++ padded 2 month ++ padded 2 dayOfMonth ++ "T" ++
    padded 2 (seconds / 3600) ++ padded 2 (seconds / 60 % 60) ++ padded 2 (seconds % 60) ++ "Z"

/-- Time passed between two points, in whole minutes, and none when it is negative. -/
def minutesSince (earlier now : Timestamp) : ℕ := (now - earlier) / minute

example : isoformat (719162 * day) = "1970-01-01T00:00:00+00:00" := by decide

end Immutavault.Timestamps
