/-!
Calendar dates as day numbers. Day 0 is Monday 1 January of year 1, so the
weekday of a date is its number modulo seven and "so many days later" is
addition. The calendar ends: the type holds exactly the dates from 1 January
-262143 to 31 December 262142, and stepping past the last one gives `none`.
-/
namespace UnpaidWork

/-- The seven days of the week, Monday first. -/
inductive Weekday where
  | monday | tuesday | wednesday | thursday | friday | saturday | sunday
  deriving DecidableEq, Repr

namespace Weekday

/-- Days since Monday. -/
def index : Weekday → Nat
  | .monday => 0
  | .tuesday => 1
  | .wednesday => 2
  | .thursday => 3
  | .friday => 4
  | .saturday => 5
  | .sunday => 6

/-- The weekday that many days after a Monday, less than a week later. -/
def ofIndex : Nat → Weekday
  | 0 => .monday
  | 1 => .tuesday
  | 2 => .wednesday
  | 3 => .thursday
  | 4 => .friday
  | 5 => .saturday
  | _ => .sunday

theorem index_lt (w : Weekday) : w.index < 7 := by cases w <;> decide

theorem ofIndex_index (w : Weekday) : ofIndex w.index = w := by cases w <;> rfl

theorem index_ofIndex {n : Nat} (below : n < 7) : (ofIndex n).index = n := by
  match n, below with
  | 0, _ | 1, _ | 2, _ | 3, _ | 4, _ | 5, _ | 6, _ => rfl

theorem index_inj {v w : Weekday} : v.index = w.index ↔ v = w := by
  constructor
  · intro same
    rw [← ofIndex_index v, ← ofIndex_index w, same]
  · rintro rfl
    rfl

end Weekday

/-- The number of the first date, 1 January -262143. -/
def Date.firstNumber : Int := -95746130

/-- The number of the last date, 31 December 262142. -/
def Date.lastNumber : Int := 95745398

/-- A date, by the number of days since Monday 1 January of year 1. -/
structure Date where
  number : Int
  inCalendar : Date.firstNumber ≤ number ∧ number ≤ Date.lastNumber
  deriving DecidableEq

namespace Date

@[ext] theorem ext {a b : Date} (same : a.number = b.number) : a = b := by
  cases a
  cases b
  simpa using same

/-- The last date of the calendar. -/
def last : Date := ⟨lastNumber, by decide⟩

instance : Inhabited Date := ⟨⟨0, by decide⟩⟩

instance : LE Date := ⟨fun a b => a.number ≤ b.number⟩

instance : LT Date := ⟨fun a b => a.number < b.number⟩

instance (a b : Date) : Decidable (a ≤ b) := inferInstanceAs (Decidable (a.number ≤ b.number))

instance (a b : Date) : Decidable (a < b) := inferInstanceAs (Decidable (a.number < b.number))

theorem le_iff {a b : Date} : a ≤ b ↔ a.number ≤ b.number := Iff.rfl

theorem lt_iff {a b : Date} : a < b ↔ a.number < b.number := Iff.rfl

/-- The date with a number, when the calendar has it. -/
def ofNumber? (n : Int) : Option Date :=
  if within : firstNumber ≤ n ∧ n ≤ lastNumber then some ⟨n, within⟩ else none

theorem ofNumber?_eq_some {n : Int} {d : Date} : ofNumber? n = some d ↔ d.number = n := by
  unfold ofNumber?
  constructor
  · intro found
    split at found
    · cases found
      rfl
    · cases found
  · rintro rfl
    simp [d.inCalendar]

/-- The date so many days later, when the calendar reaches that far. -/
def later? (d : Date) (days : Nat) : Option Date := ofNumber? (d.number + days)

/-- The following date. -/
def next? (d : Date) : Option Date := d.later? 1

theorem later?_eq_some {d e : Date} {days : Nat} :
    d.later? days = some e ↔ e.number = d.number + days := ofNumber?_eq_some

theorem next?_eq_some {d e : Date} : d.next? = some e ↔ e.number = d.number + 1 :=
  later?_eq_some

/-- How many dates follow this one. -/
def following (d : Date) : Nat := (lastNumber - d.number).toNat

theorem following_next_lt {d e : Date} (step : d.next? = some e) : e.following < d.following := by
  have number := next?_eq_some.mp step
  have bound := e.inCalendar.2
  simp only [following]
  omega

/-- The days from one date to another, negative when the other is earlier. -/
def daysTo (d e : Date) : Int := e.number - d.number

/-- The day of the week. -/
def weekday (d : Date) : Weekday := .ofIndex (d.number % 7).toNat

theorem index_weekday (d : Date) : (d.weekday.index : Int) = d.number % 7 := by
  have bounds : 0 ≤ d.number % 7 ∧ d.number % 7 < 7 := by omega
  rw [weekday, Weekday.index_ofIndex (by omega)]
  omega

/-- The later of two dates. -/
def max (d e : Date) : Date := if d ≤ e then e else d

/-- The first date with the given weekday, on or after a date. -/
def onOrAfter? (d : Date) (w : Weekday) : Option Date :=
  d.later? ((7 + w.index - d.weekday.index) % 7)

end Date
end UnpaidWork
