import UnpaidWork.Invalid

/-!
Appointments, in two states: those that exist in the case system, attended or
not, and those that a schedule requires.
-/
namespace UnpaidWork

/-- An appointment that has been made. Once its outcome is recorded, the credit
is what it counted for, whatever its length. -/
structure ExistingAppointment where
  id : Int64
  projectCode : String
  date : Date
  startTime : TimeOfDay
  endTime : TimeOfDay
  hasOutcome : Bool := false
  credit : Option Duration := none
  /-- The allocation it was made from. -/
  allocationId : Option Int64 := none
  deriving DecidableEq

/-- An appointment that should be made from an allocation. -/
structure RequiredAppointment where
  date : Date
  startTime : TimeOfDay
  endTime : TimeOfDay
  projectCode : String
  allocationId : Int64
  deriving DecidableEq

namespace ExistingAppointment

/-- The length of the appointment. -/
def duration (a : ExistingAppointment) : Duration := a.startTime.lengthTo a.endTime

/-- No outcome has been recorded yet. -/
def isUnresolved (a : ExistingAppointment) : Bool := !a.hasOutcome

/-- The time credited, none by default. -/
def credited (a : ExistingAppointment) : Duration := a.credit.getD .zero

/-- An appointment must not end before it starts. -/
def validate (a : ExistingAppointment) : Except Invalid Unit :=
  if a.endTime < a.startTime then .error (.appointmentTimes a.id a.startTime a.endTime) else .ok ()

/-- The same appointment with its outcome recorded. -/
def withOutcome (a : ExistingAppointment) (credit : Option Duration) : ExistingAppointment :=
  { a with hasOutcome := true, credit := credit }

/-- Validation accepts exactly the appointments that start no later than they end. -/
theorem validate_eq_ok_iff (a : ExistingAppointment) :
    a.validate = .ok () ↔ a.startTime ≤ a.endTime := by
  unfold validate
  split <;> simp_all only [TimeOfDay.lt_iff, TimeOfDay.le_iff, reduceCtorEq, false_iff, true_iff] <;>
    omega

end ExistingAppointment

namespace RequiredAppointment

/-- The length of the appointment. -/
def duration (r : RequiredAppointment) : Duration := r.startTime.lengthTo r.endTime

/-- The existing appointment is exactly this one: same date, times, project and allocation. -/
def isMetBy (r : RequiredAppointment) (a : ExistingAppointment) : Bool :=
  r.date = a.date && r.startTime = a.startTime && r.endTime = a.endTime &&
    r.projectCode = a.projectCode && a.allocationId = some r.allocationId

end RequiredAppointment
end UnpaidWork
