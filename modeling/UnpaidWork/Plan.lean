import UnpaidWork.Schedule

/-!
A plan: what to do about each appointment, and the outcome of a run. Nothing is
ever cancelled, so an action either creates an appointment or retains one.
-/
namespace UnpaidWork

/-- Why an existing appointment is retained. -/
inductive RetainReason where
  /-- It is one of those required. -/
  | required
  /-- It is booked on a day that the run may not touch. -/
  | forced
  /-- It is not needed, but stays. -/
  | surplus
  deriving DecidableEq, Repr

/-- The word for a reason in the text of a plan. -/
def RetainReason.text : RetainReason → String
  | .required => "required"
  | .forced => "forced"
  | .surplus => "surplus"

/-- One step of a plan. -/
inductive Action where
  | create (appointment : RequiredAppointment)
  | retain (appointment : ExistingAppointment) (reason : RetainReason)
  deriving DecidableEq

/-- The appointment that an action creates. -/
def Action.created? : Action → Option RequiredAppointment
  | .create appointment => some appointment
  | .retain _ _ => none

/-- The appointment that an action retains, with the reason. -/
def Action.retained? : Action → Option (ExistingAppointment × RetainReason)
  | .create _ => none
  | .retain appointment reason => some (appointment, reason)

/-- Date, times and project, as an action's text shows them. -/
def slotText (date : Date) (startTime endTime : TimeOfDay) (projectCode : String) : String :=
  s!"{date} {String.ofList startTime.shortText}-{String.ofList endTime.shortText} 專案 {projectCode}"

/-- An action in one line. -/
def Action.text : Action → String
  | .create r =>
    s!"建立 {slotText r.date r.startTime r.endTime r.projectCode} (分配 {r.allocationId.toInt})"
  | .retain a reason =>
    s!"保留[{reason.text}] 預約 {a.id.toInt} {slotText a.date a.startTime a.endTime a.projectCode}"

/-- What to do, in order, and what is left open after it. -/
structure Plan where
  actions : List Action
  shortfall : Duration
  deriving DecidableEq

namespace Plan

/-- The appointments to create. -/
def creations (p : Plan) : List RequiredAppointment := p.actions.filterMap Action.created?

/-- The appointments to retain, with their reasons. -/
def retentions (p : Plan) : List (ExistingAppointment × RetainReason) :=
  p.actions.filterMap Action.retained?

/-- How many appointments are retained for a reason. -/
def countRetained (p : Plan) (reason : RetainReason) : Nat :=
  p.retentions.countP fun (_, given) => given = reason

/-- Something has to be created. -/
def hasCreations (p : Plan) : Bool := !p.creations.isEmpty

/-- Some time found no room. -/
def hasShortfall (p : Plan) : Bool := Duration.zero < p.shortfall

/-- The plan, one action a line, and the whole minutes left open. -/
def text (p : Plan) : String :=
  String.join (p.actions.map fun action => action.text ++ "\n") ++
    s!"缺口 {p.shortfall.wholeMinutes} 分鐘"

end Plan

/-- How a run ends. -/
inductive Outcome where
  | requirementAlreadySatisfied
  | existingAppointmentsSufficient
  | existingAppointmentsInsufficient (plan : Plan)
  deriving DecidableEq

namespace Outcome

/-- The name of an outcome in logs and reports. -/
def name : Outcome → String
  | .requirementAlreadySatisfied => "RequirementAlreadySatisfied"
  | .existingAppointmentsSufficient => "ExistingAppointmentsSufficient"
  | .existingAppointmentsInsufficient _ => "ExistingAppointmentsInsufficient"

/-- The plan of an outcome that has one. -/
def plan? : Outcome → Option Plan
  | .existingAppointmentsInsufficient plan => some plan
  | _ => none

/-- The outcome by name, with the plan under it. -/
def text (o : Outcome) : String :=
  match o.plan? with
  | some plan => o.name ++ "\n" ++ plan.text
  | none => o.name

end Outcome
end UnpaidWork
