import UnpaidWork.Planning
import UnpaidWork.Simulation

/-!
One planning run as a pure calculation: what remains of the requirement, the
schedule for it, and the plan. Equal requests get equal outcomes. For what
remains, appointments of the past without an outcome count as worked, and those
with an outcome for their credit, whenever they were. The rest may be zero or
negative, and then the requirement is met.
-/
namespace UnpaidWork

/-- The lengths of the appointments that count as worked before `today`. -/
def assumedLengths (today : Date) (appointments : List ExistingAppointment) : List Duration :=
  (appointments.filter fun a => a.isUnresolved && a.date < today).map (·.duration)

/-- The credits of the appointments with an outcome. -/
def credits (appointments : List ExistingAppointment) : List Duration :=
  (appointments.filter (·.hasOutcome)).map (·.credited)

/-- The requirement less what counts as worked and what is credited. -/
def remainingRequirement (today : Date) (requirement : Duration)
    (appointments : List ExistingAppointment) : Traced Duration := do
  let assumed ← .attempt (Duration.total (assumedLengths today appointments))
  let credited ← .attempt (Duration.total (credits appointments))
  .tell (.remainingComputed requirement assumed credited)
  let uncredited ← .attempt (requirement.minus assumed)
  .attempt (uncredited.minus credited)

/-- The outcome that a plan amounts to: sufficient if nothing is to be created
and nothing is left open. -/
def Plan.outcome (p : Plan) : Traced Outcome :=
  if !p.hasCreations && !p.hasShortfall then do
    .tell .existingSufficient
    return .existingAppointmentsSufficient
  else do
    if p.hasShortfall then .tell (.outOfAllocations p.shortfall)
    .tell (.existingInsufficient p.creations.length p.shortfall)
    return .existingAppointmentsInsufficient p

/-- Plans for a requirement of which `remaining`, a positive time, is left. -/
def Request.planRemaining (r : Request) (maxHorizonDays : UInt32) (remaining : Duration) :
    Traced Outcome := do
  let schedule ← r.schedule maxHorizonDays remaining
  let scheduled ← .attempt schedule.totalScheduled
  .tell (.simulated schedule.requiredAppointments.length schedule.forcedRetentions.length
    scheduled schedule.shortfall)
  let plan := r.plan schedule
  Traced.tellAll plan.foundEvents
  plan.outcome

/-- The outcome of a request. -/
def Request.producePlan (r : Request) (maxHorizonDays : UInt32) : Traced Outcome := do
  .tell (.calculationStarted r.today r.trigger r.allocations.length r.existingAppointments.length)
  let remaining ← remainingRequirement r.today r.requirement r.existingAppointments
  if remaining ≤ .zero then do
    .tell (.requirementMet remaining)
    return .requirementAlreadySatisfied
  else r.planRemaining maxHorizonDays remaining

end UnpaidWork
