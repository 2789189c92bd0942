import UnpaidWork.Procedure
import UnpaidWork.Scheduler

/-!
The service that plans for one case at a time. It fetches what the case system
knows, plans, reports, and has the appointments of the plan created project by
project, unless it only tries. A locked run holds the lock of its case from
before the first of this to after the last.
-/
namespace UnpaidWork

/-- Why a run failed; `source` is the text of a failing answer. -/
inductive ServiceError where
  | caseSystem (crn source : String)
  | appointmentCreation (projectCode source : String)
  | lockUnavailable (crn : String)
  | lock (source : String)
  | invalid (cause : Invalid)

namespace ServiceError

/-- The text that reports the failure. -/
def message : ServiceError → String
  | .caseSystem crn _ => s!"無法取得個案 {crn} 的排程資料"
  | .appointmentCreation projectCode _ => s!"專案 {projectCode} 建立預約失敗"
  | .lockUnavailable crn => s!"個案 {crn} 正在排程中，無法取得鎖"
  | .lock _ => "鎖服務錯誤"
  | .invalid cause => cause.message

/-- The text of the failing answer behind a failure. -/
def source? : ServiceError → Option String
  | .caseSystem _ source | .appointmentCreation _ source | .lock source => some source
  | .lockUnavailable _ | .invalid _ => none

end ServiceError

namespace RequirementDetails

/-- What is told about the allocations that cannot be used. -/
def ignoredEvents (d : RequirementDetails) : List Event :=
  d.allocations.filterMap fun a =>
    match a.validate with
    | .ok () => none
    | .error cause => some (.allocationIgnored cause)

/-- The allocations that can be used. -/
def usableAllocations (d : RequirementDetails) : List Allocation :=
  d.allocations.filter fun a => a.validate.isOk

/-- The request for a run on what is known. Allocations that cannot be used are
left out; an appointment that cannot be is an error. -/
def request (d : RequirementDetails) (today : Date) (trigger : Trigger) :
    Except Invalid Request := do
  d.existingAppointments.forM ExistingAppointment.validate
  return {
    today := today
    trigger := trigger
    requirement := d.requirement
    allocations := d.usableAllocations
    existingAppointments := d.existingAppointments
    nonWorkingDates := d.nonWorkingDates }

end RequirementDetails

/-- The codes of the projects that a plan creates appointments on, in ascending order. -/
def Plan.projectCodes (p : Plan) : List String :=
  (p.creations.map (·.projectCode)).eraseDups.mergeSort fun a b => a ≤ b

/-- The creations of a plan, project by project. -/
def Plan.groupByProject (p : Plan) : List (String × List RequiredAppointment) :=
  p.projectCodes.map fun code => (code, p.creations.filter fun r => r.projectCode = code)

/-- A service with settings that have been checked. -/
structure Service where
  config : Config

namespace Service

/-- The service for some settings. -/
def ofConfig (config : Config) : Except Invalid Service := do
  config.validate
  return ⟨config⟩

/-- The length of a lease in milliseconds. -/
def leaseLength (s : Service) : Nat := s.config.lockLeaseSeconds.toNat * 1000

/-- Has appointments created, one call for each project, up to the first that fails. -/
def createAll (crn : String) (requirementId : Int64) :
    List (String × List RequiredAppointment) → Procedure (Except ServiceError Unit)
  | [] => .finish (.ok ())
  | (code, appointments) :: rest =>
    .tell (.creating crn code appointments.length) <|
      .create ⟨crn, requirementId, code, appointments⟩ fun
        | .ok () => createAll crn requirementId rest
        | .error source => .finish (.error (.appointmentCreation code source))

/-- Carries out an outcome: has its creations made, or only tells them. -/
def carryOut (crn : String) (requirementId : Int64) (dryRun : Bool) (outcome : Outcome) :
    Procedure (Except ServiceError Outcome) :=
  match outcome.plan? with
  | none => .finish (.ok outcome)
  | some plan =>
    if dryRun then .tell (.nothingCreated plan) (.finish (.ok outcome))
    else do
      let created ← createAll crn requirementId plan.groupByProject
      return created.map fun _ => outcome

/-- Plans on what the case system knows, reports, and carries the outcome out. -/
def planAndCarryOut (s : Service) (runId : RunId) (crn : String) (requirementId : Int64)
    (trigger : Trigger) (dryRun : Bool) (details : RequirementDetails) :
    Procedure (Except ServiceError Outcome) :=
  .askToday fun today => do
    Procedure.tellAll details.ignoredEvents
    match details.request today trigger with
    | .error cause => return .error (.invalid cause)
    | .ok request =>
      let outcome ← Procedure.calculate (request.producePlan s.config.maxHorizonDays)
      let report := Report.ofOutcome runId crn requirementId trigger.triggerType outcome dryRun
      .record report (carryOut crn requirementId dryRun outcome)

/-- One run. -/
def run (s : Service) (runId : RunId) (crn : String) (requirementId : Int64) (trigger : Trigger)
    (dryRun : Bool) : Procedure (Except ServiceError Outcome) :=
  .tell (.runStarted crn requirementId dryRun) <|
    .fetch crn requirementId fun
      | .error source => .finish (.error (.caseSystem crn source))
      | .ok details => s.planAndCarryOut runId crn requirementId trigger dryRun details

/-- A run that only tries when the settings say so. -/
def schedule (s : Service) (runId : RunId) (crn : String) (requirementId : Int64)
    (trigger : Trigger) : Procedure (Except ServiceError Outcome) :=
  s.run runId crn requirementId trigger s.config.dryRun

/-- A run that only tries. -/
def preview (s : Service) (runId : RunId) (crn : String) (requirementId : Int64)
    (trigger : Trigger) : Procedure (Except ServiceError Outcome) :=
  s.run runId crn requirementId trigger true

/-- Releases a lock; a failure is only told, for the lease will end by itself. -/
def releaseLock (crn : String) (token : LockToken) : Procedure Unit :=
  .release token fun
    | .ok () => .finish ()
    | .error text => .tell (.releaseFailed crn text) (.finish ())

/-- A run that holds the lock of its case. -/
def scheduleLocked (s : Service) (runId : RunId) (crn : String) (requirementId : Int64)
    (trigger : Trigger) : Procedure (Except ServiceError Outcome) :=
  .acquire crn s.leaseLength fun
    | .error source => .finish (.error (.lock source))
    | .ok none => .finish (.error (.lockUnavailable crn))
    | .ok (some token) => do
      let result ← s.schedule runId crn requirementId trigger
      releaseLock crn token
      return result

end Service
end UnpaidWork
