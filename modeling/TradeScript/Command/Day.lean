/-!
# TradeScript.Command.Day

Dates of the calendar, from a count of days since the first of January 1970.
-/

namespace TradeScript.Day

/-- A number with zeros in front, so that it has a number of digits. -/
def padded (width n : Nat) : String :=
  let digits := Nat.toDigits 10 n
  String.ofList (List.replicate (width - digits.length) '0' ++ digits)

/-- The date of a day as year, month and day. Years are counted from March, so that
a leap day is the last day of its year; 146097 days make 400 years, and five months
from March on have 153 days. -/
def date (days : Nat) : Nat × Nat × Nat :=
  let shifted := days + 719468
  let era := shifted / 146097
  let dayOfEra := shifted % 146097
  let yearOfEra := (dayOfEra - dayOfEra / 1460 + dayOfEra / 36524 - dayOfEra / 146096) / 365
  let dayOfYear := dayOfEra - (365 * yearOfEra + yearOfEra / 4 - yearOfEra / 100)
  let monthIndex := (5 * dayOfYear + 2) / 153
  let day := dayOfYear - (153 * monthIndex + 2) / 5 + 1
  let month := if monthIndex < 10 then monthIndex + 3 else monthIndex - 9
  let year := yearOfEra + era * 400 + (if month ≤ 2 then 1 else 0)
  (year, month, day)

/-- A day as `year-month-day`. -/
def render (days : Nat) : String :=
  let (year, month, day) := date days
  padded 4 year ++ "-" ++ padded 2 month ++ "-" ++ padded 2 day

end TradeScript.Day
