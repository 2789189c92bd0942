import UnpaidWork.Date

/-!
Dates as year, month and day. The calendar repeats every 400 years, and inside
that cycle years group by hundreds, by fours and singly; a date is taken apart
by dividing its number through these cycles, and put together by counting the
days before its year and its month. Years count from 1 upward and from 0 down.
-/
namespace UnpaidWork

/-- A year, a month from 1 and a day of the month from 1. -/
structure Civil where
  year : Int
  month : Nat
  day : Nat
  deriving DecidableEq, Repr

namespace Civil

/-- Every fourth year is a leap year, except the hundreds that no 400 divides. -/
def isLeapYear (year : Int) : Bool :=
  year % 4 = 0 && (year % 100 ≠ 0 || year % 400 = 0)

/-- The lengths of the months, January first. -/
def monthLengths (leap : Bool) : List Nat :=
  [31, if leap then 29 else 28, 31, 30, 31, 30, 31, 31, 30, 31, 30, 31]

/-- The days of all the years before this one, counted from year 1. -/
def daysBeforeYear (year : Int) : Int :=
  let elapsed := year - 1
  365 * elapsed + elapsed / 4 - elapsed / 100 + elapsed / 400

/-- The days of a year before its month `month`. -/
def daysBeforeMonth (leap : Bool) (month : Nat) : Nat :=
  ((monthLengths leap).take (month - 1)).foldl (· + ·) 0

/-- The date of a year, month and day, if there is such a day in the calendar. -/
def toDate? (c : Civil) : Option Date :=
  let leap := isLeapYear c.year
  match (monthLengths leap)[c.month - 1]? with
  | none => none
  | some length =>
    if 1 ≤ c.month ∧ 1 ≤ c.day ∧ c.day ≤ length then
      Date.ofNumber? (daysBeforeYear c.year + daysBeforeMonth leap c.month + (c.day - 1 : Nat))
    else none

/-- The month and day of the month reached after whole days, walking through
months of the given lengths; `month` is the first of them. -/
def monthDay (month : Nat) : List Nat → Nat → Nat × Nat
  | [], days => (month, days + 1)
  | length :: rest, days =>
    if days < length then (month, days + 1) else monthDay (month + 1) rest (days - length)

/-- The year that holds a day number, and the days of the year before it. -/
def yearAndDays (number : Int) : Int × Int :=
  let inFourHundred := number % 146097
  let hundreds := Min.min (inFourHundred / 36524) 3
  let inHundred := inFourHundred - hundreds * 36524
  let inFour := inHundred % 1461
  let years := Min.min (inFour / 365) 3
  (number / 146097 * 400 + hundreds * 100 + inHundred / 1461 * 4 + years + 1,
    inFour - years * 365)

/-- The year, month and day of a date. -/
def ofDate (d : Date) : Civil :=
  let (year, days) := yearAndDays d.number
  let (month, day) := monthDay 1 (monthLengths (isLeapYear year)) days.toNat
  ⟨year, month, day⟩

/-- A day number is the days before its year and the days of the year before it. -/
theorem daysBeforeYear_yearAndDays (number : Int) :
    daysBeforeYear (yearAndDays number).1 + (yearAndDays number).2 = number := by
  simp only [daysBeforeYear, yearAndDays]
  generalize cycle : number / 146097 = cycles
  generalize within : number % 146097 = inFourHundred
  generalize hundred : Min.min (inFourHundred / 36524) 3 = hundreds
  generalize four : (inFourHundred - hundreds * 36524) / 1461 = fours
  generalize rest : (inFourHundred - hundreds * 36524) % 1461 = inFour
  generalize single : Min.min (inFour / 365) 3 = years
  have few : 0 ≤ hundreds ∧ hundreds ≤ 3 ∧ 0 ≤ fours ∧ fours ≤ 24 ∧ 0 ≤ years ∧ years ≤ 3 := by
    omega
  have inFours : (cycles * 400 + hundreds * 100 + fours * 4 + years + 1 - 1) / 4
      = cycles * 100 + hundreds * 25 + fours := by omega
  have inHundreds : (cycles * 400 + hundreds * 100 + fours * 4 + years + 1 - 1) / 100
      = cycles * 4 + hundreds := by omega
  have inCycles : (cycles * 400 + hundreds * 100 + fours * 4 + years + 1 - 1) / 400
      = cycles := by omega
  rw [inFours, inHundreds, inCycles]
  omega

end Civil
end UnpaidWork
