import UnpaidWork.Appointment

/-!
A schedule: the appointments that are needed to work off a requirement, the
existing ones that have to be kept on the way, and the time that found no room.
-/
namespace UnpaidWork

/-- The appointments a requirement needs, and what they leave open. -/
structure Schedule where
  requiredAppointments : List RequiredAppointment
  forcedRetentions : List ExistingAppointment
  shortfall : Duration
  deriving DecidableEq

namespace Schedule

/-- Nothing scheduled and nothing left open. -/
def empty : Schedule := ⟨[], [], .zero⟩

/-- Some appointment of the schedule comes from the allocation. -/
def uses (s : Schedule) (allocationId : Int64) : Bool :=
  s.requiredAppointments.any (fun r => r.allocationId = allocationId) ||
    s.forcedRetentions.any fun a => a.allocationId = some allocationId

/-- The lengths of all appointments of the schedule, the required ones first. -/
def lengths (s : Schedule) : List Duration :=
  s.requiredAppointments.map (·.duration) ++ s.forcedRetentions.map (·.duration)

/-- The time that the appointments of the schedule take together. -/
def totalScheduled (s : Schedule) : Except Overflow Duration := Duration.total s.lengths

/-- The schedule has no appointments. -/
def isEmpty (s : Schedule) : Bool := s.requiredAppointments.isEmpty && s.forcedRetentions.isEmpty

end Schedule
end UnpaidWork
