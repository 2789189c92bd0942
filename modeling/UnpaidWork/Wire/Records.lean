import UnpaidWork.Request
import UnpaidWork.Schedule
import UnpaidWork.Wire.Fields
import UnpaidWork.Wire.Times
import UnpaidWork.Wire.Variant

/-!
The records of the domain on the wire, field by field. An optional value is
always written, as null when there is none; in an object it may be left out.
-/
namespace UnpaidWork.Wire

/-- The written names of the frequencies. -/
def frequencyName : Frequency → String
  | .once => "ONCE"
  | .weekly => "WEEKLY"
  | .fortnightly => "FORTNIGHTLY"

/-- Frequencies by name. -/
def frequency : Format Frequency := variants frequencyName [.once, .weekly, .fortnightly]

/-- Allocations. -/
def allocation : Format Allocation :=
  record "struct Allocation" <|
    Allocation.mk
      <$> required "id" Allocation.id int64
      <*> optional "alias" Allocation.label text
      <*> required "project_code" Allocation.projectCode text
      <*> required "frequency" Allocation.frequency frequency
      <*> required "day_of_week" Allocation.weekday weekday
      <*> required "start_date_inclusive" Allocation.startDate date
      <*> optional "end_date_inclusive" Allocation.endDate date
      <*> required "start_time" Allocation.startTime timeOfDay
      <*> required "end_time" Allocation.endTime timeOfDay

/-- Existing appointments. The credit may be left out of a list, too. -/
def existingAppointment : Format ExistingAppointment :=
  record "struct ExistingAppointment" <|
    ExistingAppointment.mk
      <$> required "id" ExistingAppointment.id int64
      <*> required "project_code" ExistingAppointment.projectCode text
      <*> required "date" ExistingAppointment.date date
      <*> required "start_time" ExistingAppointment.startTime timeOfDay
      <*> required "end_time" ExistingAppointment.endTime timeOfDay
      <*> required "has_outcome" ExistingAppointment.hasOutcome boolean
      <*> withDefault "minutes_credited" ExistingAppointment.credit (nullable minutes) none
      <*> optional "allocation_id" ExistingAppointment.allocationId int64

/-- The title of required appointments in messages. -/
def requiredAppointmentTitle : String := "struct RequiredAppointment"

/-- The fields of a required appointment. -/
def requiredAppointmentFields : Fields RequiredAppointment RequiredAppointment :=
  RequiredAppointment.mk
    <$> required "date" RequiredAppointment.date date
    <*> required "start_time" RequiredAppointment.startTime timeOfDay
    <*> required "end_time" RequiredAppointment.endTime timeOfDay
    <*> required "project_code" RequiredAppointment.projectCode text
    <*> required "allocation_id" RequiredAppointment.allocationId int64

/-- Required appointments. -/
def requiredAppointment : Format RequiredAppointment :=
  record requiredAppointmentTitle requiredAppointmentFields

/-- The written names of the kinds of change. -/
def triggerTypeName : TriggerType → String
  | .appointmentChange => "APPOINTMENT_CHANGE"
  | .allocationChange => "ALLOCATION_CHANGE"
  | .requirementChange => "REQUIREMENT_CHANGE"
  | .manual => "MANUAL"

/-- Kinds of change by name. -/
def triggerType : Format TriggerType :=
  variants triggerTypeName [.appointmentChange, .allocationChange, .requirementChange, .manual]

/-- Triggers. -/
def trigger : Format Trigger :=
  record "struct SchedulingTrigger" <|
    Trigger.mk
      <$> required "trigger_type" Trigger.triggerType triggerType
      <*> required "description" Trigger.description text

/-- Requests. -/
def request : Format Request :=
  record "struct SchedulingRequest" <|
    Request.mk
      <$> required "today" Request.today date
      <*> required "trigger" Request.trigger trigger
      <*> required "requirement" Request.requirement minutes
      <*> required "allocations" Request.allocations (listOf allocation)
      <*> required "existing_appointments" Request.existingAppointments (listOf existingAppointment)
      <*> required "non_working_dates" Request.nonWorkingDates nonWorkingDates

/-- What the case system knows about a requirement. -/
def requirementDetails : Format RequirementDetails :=
  record "struct RequirementDetails" <|
    RequirementDetails.mk
      <$> required "requirement" RequirementDetails.requirement minutes
      <*> required "allocations" RequirementDetails.allocations (listOf allocation)
      <*> required "existing_appointments" RequirementDetails.existingAppointments
        (listOf existingAppointment)
      <*> required "non_working_dates" RequirementDetails.nonWorkingDates nonWorkingDates

/-- Schedules. -/
def schedule : Format Schedule :=
  record "struct Schedule" <|
    Schedule.mk
      <$> required "required_appointments" Schedule.requiredAppointments
        (listOf requiredAppointment)
      <*> required "forced_retentions" Schedule.forcedRetentions (listOf existingAppointment)
      <*> required "shortfall" Schedule.shortfall minutes

/-- Settings; each that is left out keeps its default. -/
def config : Format Config :=
  record "struct SchedulerConfig" <|
    Config.mk
      <$> withDefault "max_horizon_days" Config.maxHorizonDays uint32 ({} : Config).maxHorizonDays
      <*> withDefault "dry_run" Config.dryRun boolean ({} : Config).dryRun
      <*> withDefault "lock_lease_seconds" Config.lockLeaseSeconds uint64
        ({} : Config).lockLeaseSeconds

/-- Settings from their text, checked. -/
def readConfig (text : List Char) : Except Invalid Config :=
  match config.readText text with
  | .error fault => .error (.configText fault)
  | .ok found => found.validate.map fun _ => found

/-- Orders to create appointments. -/
def creationRequest : Format CreationRequest :=
  record "struct CreateAppointmentsRequest" <|
    CreationRequest.mk
      <$> required "crn" CreationRequest.crn text
      <*> required "requirement_id" CreationRequest.requirementId int64
      <*> required "project_code" CreationRequest.projectCode text
      <*> required "appointments" CreationRequest.appointments (listOf requiredAppointment)

end UnpaidWork.Wire
