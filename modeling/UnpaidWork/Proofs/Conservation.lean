import UnpaidWork.Proofs.Walk

/-!
No time is made or lost by a simulation. What is scheduled and what remains add
up to what there was before every day, so a schedule with its shortfall covers
the whole requirement. It covers more only when bookings that had to be kept
reach past what remained, and this needs a changed appointment.
-/
namespace UnpaidWork

/-- All lengths that the simulation works with are exact: uses of allocations can
be cut to any length, and no booking is negative. -/
structure Simulation.Exact (sim : Simulation) : Prop where
  divisible : ∀ a ∈ sim.allocations, a.Divisible
  proper : ∀ b ∈ sim.request.existingAppointments, 0 ≤ b.duration.nanos

theorem Request.Admitted.exact {r : Request} (admitted : r.Admitted) (regular : r.Regular)
    (h : UInt32) : (r.simulation h).Exact where
  divisible := fun a member =>
    admitted.divisible regular a (Request.mem_simulation_allocations.mp member)
  proper := admitted.booking_nonneg regular

/-- What remains at the end is the shortfall, unless it is negative. -/
theorem Progress.nanos_shortfall (p : Progress) :
    p.conclude.shortfall.nanos = max 0 p.remaining.nanos := by
  rw [conclude, Duration.nanos_max, Duration.nanos_zero, Int.max_comm]

/-- The time that the appointments of a simulation fill so far. -/
def Progress.covered (p : Progress) : Int :=
  timeOf RequiredAppointment.duration p.required + timeOf ExistingAppointment.duration p.forced

namespace Simulation
variable {sim : Simulation} {start : Option Date} {day : Date} {p q final : Progress}

theorem Exact.divisible_of_applicable (exact : sim.Exact) :
    ∀ a ∈ sim.applicable day p, a.Divisible :=
  fun a member => exact.divisible a (List.mem_filter.mp member).1

theorem Exact.proper_of_booked (exact : sim.Exact) :
    ∀ b ∈ sim.booked day, 0 ≤ b.duration.nanos :=
  fun b member => exact.proper b (mem_booked member).1

/-- A day moves time from what remains to what is covered. -/
theorem Passes.balance (exact : sim.Exact) (goesOn : sim.GoesOn day p)
    (passed : sim.Passes day p q) :
    q.covered + q.remaining.nanos = p.covered + p.remaining.nanos := by
  cases passed with
  | idle => rfl
  | keeps _ _ kept =>
    obtain ⟨remaining, required, forced⟩ := Progress.keepBooked_appends kept
    simp only [Progress.covered, required, forced, timeOf_append, remaining]
    omega
  | grants _ _ granted =>
    obtain ⟨given, grants⟩ := Progress.grant_grants exact.divisible_of_applicable
      (Int.le_of_lt goesOn.remains) granted
    have balance := grants.balance
    simp only [Progress.covered, grants.required, grants.forced, timeOf_append]
    omega

theorem Reaches.balance (exact : sim.Exact) (reached : sim.Reaches start p final) :
    final.covered + final.remaining.nanos = p.covered + p.remaining.nanos := by
  induction reached with
  | calendarEnds => rfl
  | stops => rfl
  | passes goesOn passed _ ih => rw [ih, passed.balance exact goesOn]

theorem booked_eq_nil (unchanged : sim.request.trigger.isAppointmentChange = false) :
    sim.booked day = [] := by
  simp [booked, unchanged]

theorem Reaches.forced_unchanged (unchanged : sim.request.trigger.isAppointmentChange = false)
    (reached : sim.Reaches start p final) : final.forced = p.forced := by
  induction reached with
  | calendarEnds => rfl
  | stops => rfl
  | passes _ passed _ ih =>
    rw [ih]
    cases passed with
    | idle => rfl
    | keeps _ bookings => exact absurd (booked_eq_nil unchanged) bookings
    | grants _ _ granted => exact (Progress.grant_appends granted).1

/-- Only bookings that are kept take more time than remains. -/
theorem Reaches.remaining_nonneg (exact : sim.Exact)
    (unchanged : sim.request.trigger.isAppointmentChange = false)
    (reached : sim.Reaches start p final) (before : 0 ≤ p.remaining.nanos) :
    0 ≤ final.remaining.nanos := by
  induction reached with
  | calendarEnds => exact before
  | stops => exact before
  | passes goesOn passed _ ih =>
    apply ih
    cases passed with
    | idle => exact before
    | keeps _ bookings => exact absurd (booked_eq_nil unchanged) bookings
    | grants _ _ granted =>
      obtain ⟨given, grants⟩ := Progress.grant_grants exact.divisible_of_applicable before granted
      have remaining := grants.remaining
      omega

/-- A day grants appointments that take some time, and only where nothing is booked. -/
theorem Passes.granted (exact : sim.Exact) (goesOn : sim.GoesOn day p)
    (passed : sim.Passes day p q) : ∀ r ∈ q.required,
      r ∈ p.required ∨ (0 < r.duration.nanos ∧ sim.booked r.date = []) := by
  intro r member
  cases passed with
  | idle => exact .inl member
  | keeps _ _ kept =>
    obtain ⟨-, required, -⟩ := Progress.keepBooked_appends kept
    exact .inl (required ▸ member)
  | grants _ free granted =>
    obtain ⟨given, grants⟩ := Progress.grant_grants exact.divisible_of_applicable
      (Int.le_of_lt goesOn.remains) granted
    rw [grants.required] at member
    refine (List.mem_append.mp member).imp_right fun today => ⟨grants.positive r today, ?_⟩
    rw [grants.dated r today, free]

theorem Reaches.granted (exact : sim.Exact) (reached : sim.Reaches start p final) :
    ∀ r ∈ final.required,
      r ∈ p.required ∨ (0 < r.duration.nanos ∧ sim.booked r.date = []) := by
  induction reached with
  | calendarEnds => exact fun r member => .inl member
  | stops => exact fun r member => .inl member
  | passes goesOn passed _ ih =>
    intro r member
    rcases ih r member with before | later
    · exact passed.granted exact goesOn r before
    · exact .inr later

end Simulation

/-- How far a schedule and its shortfall go past the time that was left to do. -/
def Schedule.overshoot (s : Schedule) (remaining : Duration) : Int :=
  timeOf RequiredAppointment.duration s.requiredAppointments +
    timeOf ExistingAppointment.duration s.forcedRetentions + s.shortfall.nanos - remaining.nanos

namespace Request
variable {r : Request} {h : UInt32} {remaining : Duration} {s : Schedule}

theorem shortfall_nonneg (scheduled : (r.schedule h remaining).result = .ok s) :
    0 ≤ s.shortfall.nanos := by
  obtain ⟨p, -, rfl⟩ := schedule_eq_ok.mp scheduled
  rw [p.nanos_shortfall]
  omega

/-- A schedule goes past the time that was left by what less than nothing remains at its end. -/
theorem overshoot_conclude {p : Progress} (exact : (r.simulation h).Exact)
    (reached : (r.simulation h).Reaches r.firstDay ⟨remaining, [], []⟩ p) :
    p.conclude.overshoot remaining = max 0 (-p.remaining.nanos) := by
  have balance := reached.balance exact
  simp only [Progress.covered, timeOf_nil] at balance
  rw [Schedule.overshoot, p.nanos_shortfall]
  simp only [Progress.conclude]
  omega

/-- A schedule never leaves out time without reporting it as the shortfall. -/
theorem overshoot_nonneg (exact : (r.simulation h).Exact)
    (scheduled : (r.schedule h remaining).result = .ok s) : 0 ≤ s.overshoot remaining := by
  obtain ⟨p, reached, rfl⟩ := schedule_eq_ok.mp scheduled
  rw [overshoot_conclude exact reached]
  omega

/-- Unless an appointment was changed, schedule and shortfall are exactly the time left. -/
theorem overshoot_eq_zero (exact : (r.simulation h).Exact)
    (unchanged : r.trigger.isAppointmentChange = false) (positive : 0 ≤ remaining.nanos)
    (scheduled : (r.schedule h remaining).result = .ok s) : s.overshoot remaining = 0 := by
  obtain ⟨p, reached, rfl⟩ := schedule_eq_ok.mp scheduled
  have nothingLost := reached.remaining_nonneg exact unchanged positive
  rw [overshoot_conclude exact reached]
  omega

theorem lengths_nonneg (exact : (r.simulation h).Exact)
    (scheduled : (r.schedule h remaining).result = .ok s) :
    ∀ length ∈ s.lengths, 0 ≤ length.nanos := by
  intro length member
  rcases List.mem_append.mp member with required | forced
  · obtain ⟨q, inRequired, rfl⟩ := List.mem_map.mp required
    obtain ⟨p, reached, rfl⟩ := schedule_eq_ok.mp scheduled
    rcases reached.granted exact q inRequired with before | ⟨positive, -⟩
    · cases before
    · exact Int.le_of_lt positive
  · obtain ⟨b, inForced, rfl⟩ := List.mem_map.mp forced
    have coming := (schedule_coming scheduled).2.subset inForced
    exact exact.proper b (List.mem_filter.mp coming).1

end Request
end UnpaidWork
