import UnpaidWork.Allocation
import UnpaidWork.Appointment
import UnpaidWork.NonWorkingDates

/-!
What one planning run works from: the day it runs on, what set it off, the time
that has to be worked in all, and the allocations, appointments and non-working
dates known on that day. Besides, what a run exchanges with the case system, and
the settings of the scheduler: how far ahead it looks, whether it only tries, and
for how long a run may hold its case.
-/
namespace UnpaidWork

/-- What kind of change sets off a run. -/
inductive TriggerType where
  | appointmentChange | allocationChange | requirementChange | manual
  deriving DecidableEq, Repr

/-- The name that the log gives a kind of change. -/
def TriggerType.name : TriggerType → String
  | .appointmentChange => "AppointmentChange"
  | .allocationChange => "AllocationChange"
  | .requirementChange => "RequirementChange"
  | .manual => "Manual"

/-- What sets off a run, with a description for the log. -/
structure Trigger where
  triggerType : TriggerType
  description : String
  deriving DecidableEq

/-- Only a changed appointment makes a run keep what is booked on the days it reaches. -/
def Trigger.isAppointmentChange (t : Trigger) : Bool := t.triggerType = .appointmentChange

/-- The input of one run. -/
structure Request where
  today : Date
  trigger : Trigger
  requirement : Duration
  allocations : List Allocation
  existingAppointments : List ExistingAppointment
  nonWorkingDates : NonWorkingDates

/-- The appointments without an outcome from today on. -/
def Request.upcomingUnresolved (r : Request) : List ExistingAppointment :=
  r.existingAppointments.filter fun a => a.isUnresolved && r.today ≤ a.date

/-- What the case system knows about a requirement. Its allocations may be unusable. -/
structure RequirementDetails where
  requirement : Duration
  allocations : List Allocation
  existingAppointments : List ExistingAppointment
  nonWorkingDates : NonWorkingDates

/-- An order to the case system to make appointments on one project; `crn` is the
number of the person's case. -/
structure CreationRequest where
  crn : String
  requirementId : Int64
  projectCode : String
  appointments : List RequiredAppointment
  deriving DecidableEq

/-- The settings of the scheduler. By default it looks five years ahead and
holds a case for a minute. -/
structure Config where
  maxHorizonDays : UInt32 := 1825
  dryRun : Bool := false
  lockLeaseSeconds : UInt64 := 60
  deriving DecidableEq

/-- Neither the horizon nor the lease may be zero. -/
def Config.validate (c : Config) : Except Invalid Unit :=
  if c.maxHorizonDays = 0 then .error .noHorizon
  else if c.lockLeaseSeconds = 0 then .error .noLease
  else .ok ()

end UnpaidWork
