import Reckon.Data.Order
import Reckon.Failure

/-!
Points in time as text: the civil date and the time of day of a count of seconds since the first of
January 1970, in the proleptic Gregorian calendar without a zone.
-/

namespace Reckon.Clock

/-- Year, month and day of a day number, counted from 1970. The year is taken to begin in March, so
that a leap day is its last, and 146097 days make a cycle of 400 years. -/
def civil (days : Int) : Int × Nat × Nat :=
  let shifted := days + 719468
  let era := shifted.fdiv 146097
  let dayOfEra := (shifted.fmod 146097).toNat
  let yearOfEra := (dayOfEra - dayOfEra / 1460 + dayOfEra / 36524 - dayOfEra / 146096) / 365
  let dayOfYear := dayOfEra - (365 * yearOfEra + yearOfEra / 4 - yearOfEra / 100)
  let march := (5 * dayOfYear + 2) / 153
  let day := dayOfYear - (153 * march + 2) / 5 + 1
  let month := if march < 10 then march + 3 else march - 9
  (yearOfEra + era * 400 + (if month ≤ 2 then 1 else 0), month, day)

example : civil 0 = (1970, 1, 1) := by decide
example : civil 11016 = (2000, 2, 29) := by decide
example : civil (-1) = (1969, 12, 31) := by decide

/-- At least two digits. -/
def two (n : Nat) : String := if n < 10 then s!"0{n}" else toString n

/-- A point in time, to the second, whatever its year. -/
def longText (seconds : Int) : String :=
  let (year, month, day) := civil (seconds.fdiv 86400)
  let second := (seconds.fmod 86400).toNat
  s!"{year}-" ++ two month ++ "-" ++ two day ++ " " ++ two (second / 3600) ++ ":" ++
    two (second / 60 % 60) ++ ":" ++ two (second % 60)

/-- A point in time, to the second. The count of seconds has 64 bits; the year has 32, counted from
1900 in the calendar and from zero in the text. -/
def text (seconds : Int) : Except Fault String :=
  let year := (civil (seconds.fdiv 86400)).1
  if seconds < -Int.pow 2 63 ∨ Int.pow 2 63 ≤ seconds then .error (.tooLarge .clock)
  else if year - 1900 < -Int.pow 2 31 ∨ Int.pow 2 31 ≤ year - 1900 then .error .beyondCalendar
  else if Int.pow 2 31 ≤ year then .error (.tooLarge .year)
  else .ok (longText seconds)

/-- The text of a point in time given as a number; fractions of a second are dropped. -/
def textOfData (d : Data) : Except Fault String :=
  match d.amount? with
  | some (.finite n k) => text (n / Int.pow 2 k)
  | some (.infinite _) => .error (.tooLarge .whole)
  | some .nan => .error .notWhole
  | none => .error .wrongType

end Reckon.Clock
