/-!
# Dates and times

Configuration files may give dates and times. No option accepts one, so that only their texts in
messages and their order matter.

* `isDate` says which dates exist.
* `timeParts` are the parts of a time, `called` shows the parts of a date or a time.
* `stamp` is the time of a report.
-/

namespace Deadwood.Calendar

/-- Whether a year has 366 days. -/
def isLeap (year : Nat) : Bool := year % 4 = 0 && (year % 100 ≠ 0 || year % 400 = 0)

/-- The number of days of a month. -/
def daysIn (year month : Nat) : Nat :=
  if month = 2 then (if isLeap year then 29 else 28)
  else if [4, 6, 9, 11].contains month then 30 else 31

/-- Whether a date exists. -/
def isDate (year month day : Nat) : Bool :=
  1 ≤ year && year ≤ 9999 && 1 ≤ month && month ≤ 12 && 1 ≤ day && day ≤ daysIn year month

/-- Whether a time exists. -/
def isTime (hour minute second : Nat) : Bool := hour ≤ 23 && minute ≤ 59 && second ≤ 59

/-- A date or a time as messages show it: its parts in parentheses behind the name of its kind. -/
def called (name : String) (ns : List Nat) : String :=
  "datetime." ++ name ++ "(" ++ ", ".intercalate (ns.map toString) ++ ")"

/-- The parts of a time, without zeros at the end. -/
def timeParts (hour minute second micro : Nat) : List Nat :=
  [hour, minute] ++
    (if micro ≠ 0 then [second, micro] else if second ≠ 0 then [second] else [])

/-! ## Time stamps -/

/-- Year, month and day, the given number of days after the first of January 1970. Years are counted
from March, so that a leap day is the last day of a year, and in periods of 400 years. -/
def ofDays (days : Nat) : Nat × Nat × Nat :=
  let shifted := days + 719468
  let period := shifted / 146097
  let inPeriod := shifted % 146097
  let year := (inPeriod - inPeriod / 1460 + inPeriod / 36524 - inPeriod / 146096) / 365
  let inYear := inPeriod - (365 * year + year / 4 - year / 100)
  let month := (5 * inYear + 2) / 153
  let day := inYear - (153 * month + 2) / 5 + 1
  let fromMarch := period * 400 + year
  if month < 10 then (fromMarch, month + 3, day) else (fromMarch + 1, month - 9, day)

/-- A number with zeros in front, up to a width. -/
def padded (width n : Nat) : String :=
  let digits := toString n
  String.ofList (List.replicate (width - digits.length) '0') ++ digits

/-- A time, given by the seconds since the begin of 1970 and millionths, as a report shows it. -/
def stamp (seconds micros : Nat) : String :=
  let (year, month, day) := ofDays (seconds / 86400)
  let rest := seconds % 86400
  padded 4 year ++ "-" ++ padded 2 month ++ "-" ++ padded 2 day ++ "T" ++
    padded 2 (rest / 3600) ++ ":" ++
    padded 2 (rest / 60 % 60) ++ ":" ++ padded 2 (rest % 60) ++
    (if micros = 0 then "" else "." ++ padded 6 micros) ++ "+00:00"

end Deadwood.Calendar
