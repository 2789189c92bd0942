import UnpaidWork.Date.Civil
import UnpaidWork.Text.Scan

/-!
Dates and weekdays as text. A date is written as year, month and day joined by
hyphens, the year with a sign when it does not have exactly four digits. It is
read more freely: white space may stand before each part and at the end, and
month and day may have one digit.
-/
namespace UnpaidWork

open Text

/-- A year: four digits from 0 to 9999, otherwise a sign and at least four digits. -/
def Civil.yearText (year : Int) : List Char :=
  if 0 ≤ year ∧ year ≤ 9999 then padded 4 year.toNat
  else if year < 0 then '-' :: padded 4 year.natAbs
  else '+' :: padded 4 year.natAbs

/-- The written form of a date. -/
def Date.text (d : Date) : List Char :=
  let civil := Civil.ofDate d
  Civil.yearText civil.year ++ '-' :: padded 2 civil.month ++ '-' :: padded 2 civil.day

instance : ToString Date := ⟨fun d => String.ofList d.text⟩

/-- A year: four digits at most, or a sign and any number of digits. -/
def Civil.scanYear (text : List Char) : Except ScanFault (Int × List Char) := do
  let (year, rest) ← match skipBlanks text with
    | '-' :: after => do
      let (digits, rest) ← scanDigits after.length after
      pure (-(digitsValue digits : Int), rest)
    | '+' :: after => do
      let (digits, rest) ← scanDigits after.length after
      pure ((digitsValue digits : Int), rest)
    | plain => do
      let (digits, rest) ← scanDigits 4 plain
      pure ((digitsValue digits : Int), rest)
  if -2147483648 ≤ year ∧ year ≤ 2147483647 then .ok (year, rest) else .error .outOfRange

/-- The date that a text names. A month or a day that no month has is refused
when it is read, a day that its month does not have after the whole text. -/
def Date.ofText (text : List Char) : Except ScanFault Date := do
  let (year, rest) ← Civil.scanYear text
  let rest ← scanMark '-' (skipBlanks rest)
  let (month, rest) ← scanNumber 2 (fun n => 1 ≤ n && n ≤ 12) rest
  let rest ← scanMark '-' (skipBlanks rest)
  let (day, rest) ← scanNumber 2 (fun n => 1 ≤ n && n ≤ 31) rest
  scanEnd rest
  match Civil.toDate? ⟨year, month, day⟩ with
  | some date => .ok date
  | none => .error .outOfRange

/-- The full English name of a weekday. -/
def Weekday.fullName : Weekday → String
  | .monday => "Monday"
  | .tuesday => "Tuesday"
  | .wednesday => "Wednesday"
  | .thursday => "Thursday"
  | .friday => "Friday"
  | .saturday => "Saturday"
  | .sunday => "Sunday"

/-- The first three letters of a weekday's name, its written form. -/
def Weekday.shortName : Weekday → String
  | .monday => "Mon"
  | .tuesday => "Tue"
  | .wednesday => "Wed"
  | .thursday => "Thu"
  | .friday => "Fri"
  | .saturday => "Sat"
  | .sunday => "Sun"

/-- All weekdays, Monday first. -/
def Weekday.all : List Weekday :=
  [.monday, .tuesday, .wednesday, .thursday, .friday, .saturday, .sunday]

/-- The weekday with a short or full name, whatever the case of its letters. -/
def Weekday.ofName? (name : String) : Option Weekday :=
  let folded := name.toList.map Char.toLower
  all.find? fun w =>
    folded == w.shortName.toList.map Char.toLower || folded == w.fullName.toList.map Char.toLower

end UnpaidWork
