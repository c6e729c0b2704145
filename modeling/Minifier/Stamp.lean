import Minifier.Decimal.Fixed

/-!
# Moments

A moment of the calendar in universal time, and its text. Main definitions: `Stamp.ofSeconds`,
`Stamp.text`.
-/

set_option autoImplicit false

namespace Minifier

/-- A second of the calendar. -/
structure Stamp where
  year : Nat
  month : Nat
  day : Nat
  hour : Nat
  minute : Nat
  second : Nat
  deriving DecidableEq, Repr

/-- The number of days from the first of March of the year 0 to the first of January 1970. -/
def daysBeforeEpoch : Nat :=
  719468

/-- The year, month and day of a number of days after the first of March of the year 0. Years are
counted from March on, in cycles of 400, so that a leap day is the last day of its year. -/
def dateOfDays (days : Nat) : Nat × Nat × Nat :=
  let inCycle := days % 146097
  let year := (inCycle - inCycle / 1460 + inCycle / 36524 - inCycle / 146096) / 365
  let inYear := inCycle - (365 * year + year / 4 - year / 100)
  let month := (5 * inYear + 2) / 153
  let day := inYear - (153 * month + 2) / 5 + 1
  let years := year + days / 146097 * 400
  if month < 10 then (years, month + 3, day) else (years + 1, month - 9, day)

/-- The moment a number of seconds after the start of the year 1970. -/
def Stamp.ofSeconds (seconds : Nat) : Stamp :=
  let (year, month, day) := dateOfDays (seconds / 86400 + daysBeforeEpoch)
  let rest := seconds % 86400
  ⟨year, month, day, rest / 3600, rest / 60 % 60, rest % 60⟩

/-- The text of a moment: date and time, with two digits for every part but the year. -/
def Stamp.text (stamp : Stamp) : String :=
  let two (n : Nat) : String := String.ofList (paddedDigits 2 n)
  toString stamp.year ++ "-" ++ two stamp.month ++ "-" ++ two stamp.day ++ " " ++
    two stamp.hour ++ ":" ++ two stamp.minute ++ ":" ++ two stamp.second

end Minifier
