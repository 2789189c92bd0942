import UnpaidWork.NonWorkingDates
import UnpaidWork.Date.Text
import UnpaidWork.TimeOfDay.Text
import UnpaidWork.Duration
import UnpaidWork.Wire.Format

/-!
Dates, times, weekdays and durations on the wire. Durations are whole minutes:
writing cuts the rest toward zero, and reading refuses more minutes than a
duration can hold.
-/
namespace UnpaidWork.Wire

open Json

/-- Dates as strings. -/
def date : Format Date :=
  parsed "a formatted date string" toString fun s => (Date.ofText s.toList).mapError .unreadable

/-- Times of day as strings. -/
def timeOfDay : Format TimeOfDay :=
  parsed "a formatted time string" toString fun s =>
    (TimeOfDay.ofText s.toList).mapError .unreadable

/-- Weekdays by their English names. -/
def weekday : Format Weekday :=
  parsed "Weekday" Weekday.shortName fun s =>
    match Weekday.ofName? s with
    | some w => .ok w
    | none => .error .noWeekday

/-- Durations in whole minutes. -/
def minutes : Format Duration where
  write d := .integer d.wholeMinutes
  read p doc := do
    let count ← int64.read p doc
    match Duration.ofMinutes? count.toInt with
    | some d => .ok d
    | none => .error (.minutesOutOfRange count.toInt)

/-- Non-working dates as a list, written in ascending order and read in any. -/
def nonWorkingDates : Format NonWorkingDates where
  write s := (listOf date).write s.dates
  read p doc := ((listOf date).read p doc).map .ofList

end UnpaidWork.Wire
