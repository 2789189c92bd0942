import UnpaidWork.Proofs.Filling
import UnpaidWork.Proofs.InputOrder
import UnpaidWork.Proofs.Overshoot
import UnpaidWork.Proofs.PassingDays

/-!
When no duration overflows. The requirement, the credits and the appointments of
a request, each counted as positive, bound everything that a run adds up or takes
off: an appointment counts as worked or is kept, each at most once, and what a
schedule requires is taken from what remains of the requirement. So a run gives
an outcome whenever all of these together are within the limit of a duration, in
whatever order they are listed.
-/
namespace UnpaidWork

/-- The requirement, the credits and the appointments, all of them counted as positive. -/
def Request.amounts (r : Request) : Int :=
  r.requirement.abs.nanos + timeOf Duration.abs (credits r.existingAppointments) +
    timeOf ExistingAppointment.duration r.existingAppointments

namespace Request
variable {r r' : Request} {h : UInt32} {remaining : Duration} {s : Schedule}

/-! Another order -/

theorem Reorders.amounts_eq (reordered : r.Reorders r') : r'.amounts = r.amounts := by
  have credited : (credits r'.existingAppointments).Perm (credits r.existingAppointments) :=
    (reordered.appointments.filter _).map _
  rw [amounts, amounts, reordered.requirement, timeOf_perm credited,
    timeOf_perm reordered.appointments]

theorem Reorders.exact (reordered : r.Reorders r') (exact : (r.simulation h).Exact) :
    (r'.simulation h).Exact where
  divisible a member := exact.divisible a <| mem_simulation_allocations.mpr <|
    reordered.allocations.subset (mem_simulation_allocations.mp member)
  proper b member := exact.proper b (reordered.appointments.subset member)

/-! What a run calculates -/

/-- What remains of the requirement can be told, and leaves room for all appointments. -/
theorem exists_remaining_with_room (proper : ∀ b ∈ r.existingAppointments, 0 ≤ b.duration.nanos)
    (fits : r.amounts ≤ Duration.limit) : ∃ remaining : Duration,
    (remainingRequirement r.today r.requirement r.existingAppointments).result = .ok remaining ∧
      max 0 remaining.nanos + timeOf ExistingAppointment.duration r.existingAppointments ≤
        Duration.limit := by
  have credited := Duration.timeOf_bounds (credits r.existingAppointments)
  have creditsNonneg : 0 ≤ timeOf Duration.abs (credits r.existingAppointments) :=
    timeOf_nonneg fun length _ => length.abs_nonneg
  have properAssumed : ∀ length ∈ assumedLengths r.today r.existingAppointments,
      0 ≤ length.nanos := by
    intro length member
    obtain ⟨b, selected, rfl⟩ := List.mem_map.mp member
    exact proper b (List.mem_filter.mp selected).1
  have assumedNonneg : 0 ≤ timeOf id (assumedLengths r.today r.existingAppointments) :=
    timeOf_nonneg properAssumed
  have assumed : timeOf id (assumedLengths r.today r.existingAppointments) ≤
      timeOf ExistingAppointment.duration r.existingAppointments := by
    rw [assumedLengths, timeOf_map]
    exact timeOf_sublist List.filter_sublist proper
  rw [amounts, Duration.nanos_abs] at fits
  obtain ⟨worked, workedSum⟩ := Duration.total_of_nonneg properAssumed (by omega)
  obtain ⟨credit, creditSum⟩ : ∃ sum, Duration.total (credits r.existingAppointments) = .ok sum :=
    Duration.total_of_abs (by omega)
  have workedTime := Duration.nanos_total workedSum
  have creditTime := Duration.nanos_total creditSum
  let uncredited : Duration := ⟨r.requirement.nanos - worked.nanos, by omega⟩
  have first : r.requirement.minus worked = .ok uncredited := Duration.minus_eq_ok.mpr rfl
  let remaining : Duration := ⟨uncredited.nanos - credit.nanos, by dsimp only [uncredited]; omega⟩
  have second : uncredited.minus credit = .ok remaining := Duration.minus_eq_ok.mpr rfl
  refine ⟨remaining, ?_, by dsimp only [remaining, uncredited]; omega⟩
  simp only [remainingRequirement, Traced.result_bind, Traced.result_tell, Traced.result_attempt]
  exact bind_eq_ok.mpr ⟨worked, workedSum, bind_eq_ok.mpr ⟨credit, creditSum,
    bind_eq_ok.mpr ⟨(), rfl, bind_eq_ok.mpr ⟨uncredited, first, second⟩⟩⟩⟩

/-- While something remains, a day can keep its bookings: they are taken off a positive time. -/
theorem exists_keepBooked {day : Date} {p : Progress} (exact : (r.simulation h).Exact)
    (fits : timeOf ExistingAppointment.duration r.existingAppointments ≤ Duration.limit)
    (remains : 0 < p.remaining.nanos) :
    ∃ q, (Progress.keepBooked day ((r.simulation h).booked day) p).result = .ok q := by
  have bookings : 0 ≤ timeOf ExistingAppointment.duration ((r.simulation h).booked day) :=
    timeOf_nonneg exact.proper_of_booked
  have some : ((r.simulation h).booked day).Subperm r.existingAppointments :=
    Simulation.booked_subperm.trans List.filter_sublist.subperm
  have within := timeOf_subperm some exact.proper
  have before := p.remaining.bounded
  let left : Duration := ⟨p.remaining.nanos -
    timeOf ExistingAppointment.duration ((r.simulation h).booked day), by omega⟩
  have remaining : left.nanos = p.remaining.nanos -
    timeOf ExistingAppointment.duration ((r.simulation h).booked day) := rfl
  exact ⟨_, Progress.keepBooked_of_remaining exact.proper_of_booked remaining⟩

theorem exists_schedule (exact : (r.simulation h).Exact)
    (fits : timeOf ExistingAppointment.duration r.existingAppointments ≤ Duration.limit)
    (remaining : Duration) : ∃ s, (r.schedule h remaining).result = .ok s := by
  have proper : ∀ a ∈ (r.simulation h).allocations, 0 ≤ a.duration.nanos := fun a member =>
    Int.le_of_lt (exact.divisible a member).positive
  obtain ⟨final, reached⟩ := Simulation.exists_reaches (fun day p goesOn =>
    Simulation.exists_passes proper (exists_keepBooked exact fits goesOn.remains)) r.firstDay
    ⟨remaining, [], []⟩
  exact ⟨final.conclude, schedule_eq_ok.mpr ⟨final, reached, rfl⟩⟩

/-- The total can be told: required appointments take what remained at most, and
each appointment is kept at most once. -/
theorem exists_totalScheduled (exact : (r.simulation h).Exact)
    (scheduled : (r.schedule h remaining).result = .ok s)
    (fits : max 0 remaining.nanos +
      timeOf ExistingAppointment.duration r.existingAppointments ≤ Duration.limit) :
    ∃ total, s.totalScheduled = .ok total := by
  have required := requiredTime_le_max exact scheduled
  have coming := (schedule_coming scheduled).2.trans List.filter_sublist.subperm
  have forced := timeOf_subperm coming exact.proper
  refine Duration.total_of_nonneg (lengths_nonneg exact scheduled) ?_
  rw [Schedule.timeOf_lengths]
  omega

/-- If the requirement, the credits and the appointments are together within the
limit of a duration, nothing in a run overflows: what remains, the schedule for
it and its total can be told, and the run gives an outcome. -/
theorem no_duration_overflows (admitted : r.Admitted) (regular : r.Regular)
    (fits : r.amounts ≤ Duration.limit) (reordered : r.Reorders r') :
    ∃ remaining s total o,
      (remainingRequirement r'.today r'.requirement r'.existingAppointments).result =
        .ok remaining ∧
      (r'.schedule h remaining).result = .ok s ∧ s.totalScheduled = .ok total ∧
      (r'.producePlan h).result = .ok o := by
  have exact : (r'.simulation h).Exact := reordered.exact (admitted.exact regular h)
  rw [← reordered.amounts_eq] at fits
  have proper : ∀ b ∈ r'.existingAppointments, 0 ≤ b.duration.nanos := exact.proper
  obtain ⟨remaining, left, room⟩ := exists_remaining_with_room proper fits
  obtain ⟨s, scheduled⟩ := exists_schedule exact (by omega) remaining
  obtain ⟨total, told⟩ := exists_totalScheduled exact scheduled room
  refine ⟨remaining, s, total, ?_⟩
  by_cases met : remaining.nanos ≤ 0
  · exact ⟨_, left, scheduled, told, by rw [producePlan_of_left left, if_pos met]⟩
  · exact ⟨_, left, scheduled, told,
      producePlan_of_plans ⟨left, Int.not_le.mp met, scheduled, total, told⟩⟩

/-- A credit takes two hours back, so four hours remain of a requirement of two. After
a change, two booked Mondays use them up, in whichever order all three are listed. -/
theorem two_hours_taken_back_fit :
    let takenBack : Duration := ⟨-7200000000000, by decide⟩
    let earlier := { Sample.booking 7 ⟨739158, by decide⟩ with
      hasOutcome := true, credit := some takenBack }
    let request (existing : List ExistingAppointment) :=
      Sample.request .appointmentChange .weekly Sample.twoHours existing
    let r := request [earlier, Sample.booking 8 Sample.monday, Sample.booking 9 Sample.nextMonday]
    let r' := request [Sample.booking 9 Sample.nextMonday, Sample.booking 8 Sample.monday, earlier]
    r.Admitted ∧ r.Regular ∧ r.amounts ≤ Duration.limit ∧ r.Reorders r' ∧
      ∃ remaining s total o,
        (remainingRequirement r'.today r'.requirement r'.existingAppointments).result =
          .ok remaining ∧
        (r'.schedule 365 remaining).result = .ok s ∧ s.totalScheduled = .ok total ∧
        (r'.producePlan 365).result = .ok o := by
  intro takenBack earlier request r r'
  have admitted : r.Admitted := Sample.admitted (by decide)
  have regular : r.Regular := Sample.regular (by decide)
  have fits : r.amounts ≤ Duration.limit := by decide
  have reordered : r.Reorders r' := ⟨rfl, rfl, rfl, .refl _, by decide, rfl⟩
  exact ⟨admitted, regular, fits, reordered,
    no_duration_overflows admitted regular fits reordered⟩

end Request
end UnpaidWork
