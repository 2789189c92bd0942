import UnpaidWork.Occurrence
import UnpaidWork.Traced

/-!
The simulation that makes a schedule. It walks through the working days from
today on. On a day on which allocations can be used it grants each of them, the
earliest start first, its length or what remains; but when an appointment was
changed and the day has bookings without an outcome, it keeps those instead and
grants nothing. It ends when nothing remains, when no allocation can be used
any more, or at the horizon; what then remains is the shortfall.
-/
namespace UnpaidWork

/-- The order of slots on one day: by start time, then by id. -/
def slotOrder (start₁ : TimeOfDay) (id₁ : Int64) (start₂ : TimeOfDay) (id₂ : Int64) : Bool :=
  start₁ < start₂ || (start₁ = start₂ && id₁ ≤ id₂)

/-- Allocations in the order of their slots. -/
def sortAllocations (allocations : List Allocation) : List Allocation :=
  allocations.mergeSort fun a b => slotOrder a.startTime a.id b.startTime b.id

/-- Appointments of one day in the order of their slots. -/
def sortAppointments (appointments : List ExistingAppointment) : List ExistingAppointment :=
  appointments.mergeSort fun a b => slotOrder a.startTime a.id b.startTime b.id

/-- The appointments of a day that have no outcome, in the order of their slots. -/
def unresolvedOn (appointments : List ExistingAppointment) (day : Date) :
    List ExistingAppointment :=
  sortAppointments (appointments.filter fun a => a.isUnresolved && a.date = day)

/-- What a simulation works from; its allocations are in the order of their slots. -/
structure Simulation where
  request : Request
  allocations : List Allocation
  maxHorizonDays : UInt32

/-- How far a simulation has come: what remains and what is scheduled. -/
structure Progress where
  remaining : Duration
  required : List RequiredAppointment
  forced : List ExistingAppointment

/-- What one day leads to. -/
inductive Visit where
  | finished
  | onward (progress : Progress)

namespace Progress

/-- The appointments scheduled so far, as a schedule. -/
def schedule (p : Progress) : Schedule := ⟨p.required, p.forced, .zero⟩

/-- The schedule that a simulation ends with. -/
def conclude (p : Progress) : Schedule := ⟨p.required, p.forced, p.remaining.max .zero⟩

/-- The appointment that uses an allocation on a day for a length of time. -/
def appointmentOf (day : Date) (a : Allocation) (length : Duration) : RequiredAppointment where
  date := day
  startTime := a.startTime
  endTime := a.startTime.shift length
  projectCode := a.projectCode
  allocationId := a.id

/-- Grants the allocations of a day one after the other, while something remains. -/
def grant (day : Date) : List Allocation → Progress → Traced Progress
  | [], p => pure p
  | a :: rest, p =>
    if p.remaining ≤ .zero then pure p
    else do
      let length := p.remaining.min a.duration
      .tell (.appointmentNeeded day a.displayName length)
      let left ← .attempt (p.remaining.minus length)
      grant day rest
        { p with remaining := left, required := p.required ++ [appointmentOf day a length] }

/-- Keeps the bookings of a day, all of them whatever remains. -/
def keepBooked (day : Date) : List ExistingAppointment → Progress → Traced Progress
  | [], p => pure p
  | b :: rest, p => do
    .tell (.bookingKept day b.id)
    let left ← .attempt (p.remaining.minus b.duration)
    keepBooked day rest { p with remaining := left, forced := p.forced ++ [b] }

end Progress

namespace Simulation

/-- The bookings that a day keeps: none unless an appointment was changed. -/
def booked (sim : Simulation) (day : Date) : List ExistingAppointment :=
  if sim.request.trigger.isAppointmentChange then
    unresolvedOn sim.request.existingAppointments day
  else []

/-- The allocations that can be used on a day. -/
def applicable (sim : Simulation) (day : Date) (p : Progress) : List Allocation :=
  sim.allocations.filter fun a => a.isPossibleOn day p.schedule

/-- What happens on one working day. -/
def visit (sim : Simulation) (day : Date) (p : Progress) : Traced Visit :=
  if p.remaining ≤ .zero then pure .finished
  else if (sim.maxHorizonDays.toNat : Int) < sim.request.today.daysTo day then do
    .tell (.horizonPassed sim.request.today sim.maxHorizonDays p.remaining)
    return .finished
  else if !sim.allocations.any fun a => (a.nextPossibleDate? day p.schedule).isSome then do
    .tell (.nothingPossible day p.remaining)
    return .finished
  else
    match sim.applicable day p with
    | [] => pure (.onward p)
    | usable =>
      match sim.booked day with
      | [] => .onward <$> Progress.grant day usable p
      | bookings => .onward <$> Progress.keepBooked day bookings p

/-- The dates from a day to the end of the calendar, the day included. -/
def daysLeft : Option Date → Nat
  | none => 0
  | some day => day.following + 1

/-- Walks on from a working day, if there is one. `told` holds what has been
told so far, the latest event first. -/
def walk (sim : Simulation) (day : Option Date) (p : Progress) (told : List Event) :
    Traced Progress :=
  match day with
  | none => ⟨told.reverse, .ok p⟩
  | some today =>
    match sim.visit today p with
    | ⟨events, .error cause⟩ => ⟨told.reverse ++ events, .error cause⟩
    | ⟨events, .ok .finished⟩ => ⟨told.reverse ++ events, .ok p⟩
    | ⟨events, .ok (.onward p)⟩ =>
      walk sim (sim.request.nonWorkingDates.nextWorkingDay? today) p (events.reverse ++ told)
termination_by daysLeft day
decreasing_by
  cases step : sim.request.nonWorkingDates.nextWorkingDay? today with
  | none => simp [daysLeft]
  | some next =>
    have := NonWorkingDates.following_nextWorkingDay_lt step
    simp only [daysLeft]
    omega

end Simulation

/-- The schedule for a request of which `remaining` is left to do. -/
def Request.schedule (r : Request) (maxHorizonDays : UInt32) (remaining : Duration) :
    Traced Schedule := do
  let sim : Simulation := ⟨r, sortAllocations r.allocations, maxHorizonDays⟩
  let start := r.nonWorkingDates.workingDayOnOrAfter? r.today
  let p ← sim.walk start ⟨remaining, [], []⟩ []
  return p.conclude

end UnpaidWork
