import UnpaidWork.Invalid

/-!
Allocations: the recurring slots in which somebody can work on a project. An
allocation is usable from its start date to its end date, both included, on one
weekday, and each use lasts from its start time to its end time.
-/
namespace UnpaidWork

/-- How often an allocation can be used. -/
inductive Frequency where
  | once | weekly | fortnightly
  deriving DecidableEq, Repr

/-- A recurring slot of one person on one project. -/
structure Allocation where
  id : Int64
  label : Option String := none
  projectCode : String
  frequency : Frequency
  weekday : Weekday
  startDate : Date
  /-- The last usable date; without one the allocation does not end. -/
  endDate : Option Date := none
  startTime : TimeOfDay
  endTime : TimeOfDay
  deriving DecidableEq

namespace Allocation

/-- The length of one use. -/
def duration (a : Allocation) : Duration := a.startTime.lengthTo a.endTime

/-- The allocation's last date lies before the given one. -/
def hasEndedBefore (a : Allocation) (d : Date) : Bool :=
  match a.endDate with
  | some last => last < d
  | none => false

/-- The end date, if there is one, must lie after the start date. -/
def validateDates (a : Allocation) : Except Invalid Unit :=
  match a.endDate with
  | some last =>
    if last ≤ a.startDate then .error (.allocationDates a.id a.startDate last) else .ok ()
  | none => .ok ()

/-- The end time must lie after the start time. -/
def validateTimes (a : Allocation) : Except Invalid Unit :=
  if a.endTime ≤ a.startTime then .error (.allocationTimes a.id a.startTime a.endTime) else .ok ()

/-- Dates are checked first, then times. -/
def validate (a : Allocation) : Except Invalid Unit := do
  a.validateDates
  a.validateTimes

/-- The allocation has usable dates and times. -/
def IsValid (a : Allocation) : Prop :=
  (∀ last, a.endDate = some last → a.startDate < last) ∧ a.startTime < a.endTime

theorem validateDates_eq_ok_iff (a : Allocation) :
    a.validateDates = .ok () ↔ ∀ last, a.endDate = some last → a.startDate < last := by
  unfold validateDates
  cases a.endDate with
  | none => simp
  | some last =>
    simp only [Option.some.injEq, forall_eq', Date.lt_iff, Date.le_iff]
    split <;> simp <;> omega

theorem validateTimes_eq_ok_iff (a : Allocation) :
    a.validateTimes = .ok () ↔ a.startTime < a.endTime := by
  simp only [validateTimes, TimeOfDay.lt_iff, TimeOfDay.le_iff]
  split <;> simp <;> omega

private theorem both_checks_ok {x y : Except Invalid Unit} :
    (x >>= fun _ => y) = .ok () ↔ x = .ok () ∧ y = .ok () := by
  cases x <;> simp [bind, Except.bind]

/-- Validation accepts exactly the allocations with usable dates and times. -/
theorem validate_eq_ok_iff (a : Allocation) : a.validate = .ok () ↔ a.IsValid := by
  unfold IsValid validate
  rw [← validateDates_eq_ok_iff, ← validateTimes_eq_ok_iff]
  exact both_checks_ok

/-- The name that the log calls the allocation by. -/
def displayName (a : Allocation) : String :=
  match a.label with
  | some label => s!"{label} ({a.id.toInt})"
  | none => s!"allocation {a.id.toInt}"

end Allocation
end UnpaidWork
