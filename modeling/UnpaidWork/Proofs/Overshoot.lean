import UnpaidWork.Proofs.Overbooking

/-!
How a schedule, its shortfall and the time that was left to do balance. Granted
appointments never go past what remains, so only bookings that are kept can, and
the walk ends with the day on which they do: something still remained before
this day, so less than its bookings are too much, and nothing is scheduled on
it or after it besides them.
-/
namespace UnpaidWork

namespace Simulation
variable {sim : Simulation} {start : Option Date} {day : Date} {p q final : Progress}

/-- Nothing happens any more once nothing remains. -/
theorem Reaches.eq_of_nothing (reached : sim.Reaches start p final)
    (nothing : p.remaining.nanos ≤ 0) : final = p := by
  cases reached with
  | calendarEnds => rfl
  | stops => rfl
  | passes goesOn => exact absurd goesOn.remains (Int.not_lt.mpr nothing)

/-- A day after which less than nothing remains kept its bookings. -/
theorem Passes.past_zero (exact : sim.Exact) (goesOn : sim.GoesOn day p)
    (passed : sim.Passes day p q) (past : q.remaining.nanos < 0) :
    q.required = p.required ∧ q.forced = p.forced ++ sim.booked day ∧
      -q.remaining.nanos < timeOf ExistingAppointment.duration (sim.booked day) := by
  have remains := goesOn.remains
  cases passed with
  | idle => omega
  | keeps _ _ kept =>
    obtain ⟨remaining, required, forced⟩ := Progress.keepBooked_appends kept
    exact ⟨required, forced, by omega⟩
  | grants _ _ granted =>
    obtain ⟨given, grants⟩ := Progress.grant_grants exact.divisible_of_applicable
      (Int.le_of_lt remains) granted
    have remaining := grants.remaining
    omega

/-- A walk after which less than nothing remains ends by keeping the bookings of
a day, which last longer than what it goes past zero. -/
theorem Reaches.past_zero (exact : sim.Exact) (reached : sim.Reaches start p final)
    (before : 0 ≤ p.remaining.nanos) (past : final.remaining.nanos < 0) :
    ∃ day given kept, (∃ first, start = some first ∧ first ≤ day) ∧
      final.required = p.required ++ given ∧
      final.forced = p.forced ++ (kept ++ sim.booked day) ∧
      (∀ r ∈ given, r.date < day) ∧ (∀ b ∈ kept, b.date < day) ∧
      -final.remaining.nanos < timeOf ExistingAppointment.duration (sim.booked day) := by
  induction reached with
  | calendarEnds => omega
  | stops => omega
  | @passes day p q final goesOn passed rest ih =>
    by_cases pastNow : q.remaining.nanos < 0
    · obtain ⟨required, forced, time⟩ := passed.past_zero exact goesOn pastNow
      cases rest.eq_of_nothing (Int.le_of_lt pastNow)
      exact ⟨day, [], [], ⟨day, rfl, Int.le_refl _⟩, by simp [required], by simp [forced], by simp,
        by simp, time⟩
    · obtain ⟨latest, later, keptLater, ⟨next, step, order⟩, required, forced, dated, datedKept,
        time⟩ := ih (Int.not_lt.mp pastNow) past
      obtain ⟨given, kept, own, ownForced, today, booked⟩ := passed.adds
      have order : day < latest := lt_of_dayAfter_le step order
      refine ⟨latest, given ++ later, kept ++ keptLater, ⟨day, rfl, Int.le_of_lt order⟩, ?_, ?_, ?_,
        ?_, time⟩
      · rw [required, own, List.append_assoc]
      · rw [forced, ownForced, List.append_assoc, List.append_assoc]
      · intro r member
        rcases List.mem_append.mp member with now | after
        · rwa [today r now]
        · exact dated r after
      · intro b member
        rcases List.mem_append.mp member with now | after
        · rwa [(mem_booked (booked.subset now)).2.2]
        · exact datedKept b after

end Simulation

namespace Request
variable {r : Request} {h : UInt32} {remaining : Duration} {s : Schedule}

theorem requiredTime_le_max (exact : (r.simulation h).Exact)
    (scheduled : (r.schedule h remaining).result = .ok s) :
    timeOf RequiredAppointment.duration s.requiredAppointments ≤ max 0 remaining.nanos := by
  obtain ⟨p, reached, rfl⟩ := schedule_eq_ok.mp scheduled
  obtain ⟨given, fits⟩ := reached.fits exact
  have required : p.conclude.requiredAppointments = given := by
    simp [Progress.conclude, fits.required]
  have time := fits.time
  rw [timeOf_nil] at time
  dsimp only at time
  rw [required]
  omega

/-- Required appointments alone never go past the time that was left to do. -/
theorem requiredTime_le (exact : (r.simulation h).Exact) (positive : 0 ≤ remaining.nanos)
    (scheduled : (r.schedule h remaining).result = .ok s) :
    timeOf RequiredAppointment.duration s.requiredAppointments ≤ remaining.nanos := by
  have bound := requiredTime_le_max exact scheduled
  rwa [Int.max_eq_right positive] at bound

/-- A shortfall means that nothing went past the time that was left to do. -/
theorem overshoot_of_shortfall (exact : (r.simulation h).Exact)
    (scheduled : (r.schedule h remaining).result = .ok s) (short : 0 < s.shortfall.nanos) :
    s.overshoot remaining = 0 := by
  obtain ⟨p, reached, rfl⟩ := schedule_eq_ok.mp scheduled
  rw [p.nanos_shortfall] at short
  rw [overshoot_conclude exact reached]
  omega

/-- What goes past the time that was left is less than the forced retentions of
the latest date that has any, and this date is later than all required ones. -/
theorem overshoot_lt_latest_forced (exact : (r.simulation h).Exact) (positive : 0 ≤ remaining.nanos)
    (scheduled : (r.schedule h remaining).result = .ok s) (past : 0 < s.overshoot remaining) :
    ∃ latest ∈ s.forcedRetentions, (∀ b ∈ s.forcedRetentions, b.date ≤ latest.date) ∧
      (∀ q ∈ s.requiredAppointments, q.date < latest.date) ∧
      s.overshoot remaining < timeOf ExistingAppointment.duration
        (s.forcedRetentions.filter fun b => b.date = latest.date) := by
  obtain ⟨p, reached, rfl⟩ := schedule_eq_ok.mp scheduled
  have overshoot := overshoot_conclude exact reached
  obtain ⟨day, given, kept, -, required, forced, dated, datedKept, time⟩ :=
    reached.past_zero exact positive (by omega)
  have onDay : ∀ b ∈ (r.simulation h).booked day, b.date = day := fun b member =>
    (Simulation.mem_booked member).2.2
  have latestBookings : p.conclude.forcedRetentions.filter (fun b => b.date = day) =
      (r.simulation h).booked day := by
    have earlier : kept.filter (fun b => b.date = day) = [] := by
      refine List.filter_eq_nil_iff.mpr fun b member => ?_
      simp only [decide_eq_true_eq]
      rintro rfl
      exact Int.lt_irrefl _ (datedKept b member)
    have all : ((r.simulation h).booked day).filter (fun b => b.date = day) =
        (r.simulation h).booked day :=
      List.filter_eq_self.mpr fun b member => by simp [onDay b member]
    simp [Progress.conclude, forced, earlier, all]
  have someBooked : (r.simulation h).booked day ≠ [] := by
    intro none
    rw [none, timeOf_nil] at time
    omega
  obtain ⟨latest, member⟩ := List.exists_mem_of_ne_nil _ someBooked
  have date := onDay latest member
  refine ⟨latest, ?_, ?_, ?_, ?_⟩
  · simp [Progress.conclude, forced, member]
  · intro b inForced
    have inForced : b ∈ kept ∨ b ∈ (r.simulation h).booked day := by
      simpa [Progress.conclude, forced] using inForced
    rw [date]
    rcases inForced with earlier | last
    · exact Int.le_of_lt (datedKept b earlier)
    · rw [onDay b last]
      exact Int.le_refl _
  · intro q inRequired
    rw [date]
    exact dated q (by simpa [Progress.conclude, required] using inRequired)
  · rw [date, latestBookings, overshoot]
    omega

/-- The total of a schedule is the time of both kinds of its appointments, and
it can be told whenever a duration holds this time. -/
theorem totalScheduled_eq_ok_iff (exact : (r.simulation h).Exact)
    (scheduled : (r.schedule h remaining).result = .ok s) {total : Duration} :
    s.totalScheduled = .ok total ↔ total.nanos =
      timeOf RequiredAppointment.duration s.requiredAppointments +
        timeOf ExistingAppointment.duration s.forcedRetentions := by
  rw [← Schedule.timeOf_lengths]
  constructor
  · exact Duration.nanos_total
  · intro sum
    have within := total.bounded
    obtain ⟨other, added⟩ :=
      Duration.total_of_nonneg (lengths_nonneg exact scheduled) (by omega)
    have same : other = total := Duration.ext (by rw [Duration.nanos_total added, sum])
    rw [Schedule.totalScheduled, added, same]

/-- What a schedule requires, what it forces and its shortfall are the time that
was left to do and the overshoot, and the overshoot is bounded on all sides. -/
theorem schedule_conserves_time (usable : ∀ a ∈ r.allocations, a.IsValid)
    (ordered : ∀ b ∈ r.existingAppointments, b.startTime ≤ b.endTime) (regular : r.Regular)
    (positive : 0 < remaining.nanos) (scheduled : (r.schedule h remaining).result = .ok s) :
    timeOf RequiredAppointment.duration s.requiredAppointments +
        timeOf ExistingAppointment.duration s.forcedRetentions + s.shortfall.nanos =
      remaining.nanos + s.overshoot remaining ∧
    0 ≤ s.overshoot remaining ∧
    timeOf RequiredAppointment.duration s.requiredAppointments ≤ remaining.nanos ∧
    0 ≤ s.shortfall.nanos ∧
    (0 < s.shortfall.nanos → s.overshoot remaining = 0) ∧
    (r.trigger.isAppointmentChange = false → s.overshoot remaining = 0) ∧
    (0 < s.overshoot remaining →
      ∃ latest ∈ s.forcedRetentions, (∀ b ∈ s.forcedRetentions, b.date ≤ latest.date) ∧
        (∀ q ∈ s.requiredAppointments, q.date < latest.date) ∧
        s.overshoot remaining < timeOf ExistingAppointment.duration
          (s.forcedRetentions.filter fun b => b.date = latest.date)) ∧
    ∀ total, s.totalScheduled = .ok total ↔ total.nanos =
      timeOf RequiredAppointment.duration s.requiredAppointments +
        timeOf ExistingAppointment.duration s.forcedRetentions := by
  have exact := (admitted_of_valid usable ordered).exact regular h
  have start := Int.le_of_lt positive
  refine ⟨?_, overshoot_nonneg exact scheduled, requiredTime_le exact start scheduled,
    shortfall_nonneg scheduled, overshoot_of_shortfall exact scheduled,
    fun unchanged => overshoot_eq_zero exact unchanged start scheduled,
    overshoot_lt_latest_forced exact start scheduled,
    fun _ => totalScheduled_eq_ok_iff exact scheduled⟩
  rw [Schedule.overshoot]
  omega

/-- Of three hours a free Monday takes two, and the booked one after it an hour too much. -/
theorem schedule_goes_an_hour_too_far :
    let threeHours : Duration := ⟨10800000000000, by decide⟩
    let booked := Sample.booking 7 Sample.nextMonday
    let r := Sample.request .appointmentChange .weekly threeHours [booked]
    let s : Schedule := ⟨[Sample.slot Sample.monday], [booked], .zero⟩
    timeOf RequiredAppointment.duration s.requiredAppointments +
        timeOf ExistingAppointment.duration s.forcedRetentions + s.shortfall.nanos =
      threeHours.nanos + s.overshoot threeHours ∧
    0 ≤ s.overshoot threeHours ∧
    timeOf RequiredAppointment.duration s.requiredAppointments ≤ threeHours.nanos ∧
    0 ≤ s.shortfall.nanos ∧
    (0 < s.shortfall.nanos → s.overshoot threeHours = 0) ∧
    (r.trigger.isAppointmentChange = false → s.overshoot threeHours = 0) ∧
    (0 < s.overshoot threeHours →
      ∃ latest ∈ s.forcedRetentions, (∀ b ∈ s.forcedRetentions, b.date ≤ latest.date) ∧
        (∀ q ∈ s.requiredAppointments, q.date < latest.date) ∧
        s.overshoot threeHours < timeOf ExistingAppointment.duration
          (s.forcedRetentions.filter fun b => b.date = latest.date)) ∧
    ∀ total, s.totalScheduled = .ok total ↔ total.nanos =
      timeOf RequiredAppointment.duration s.requiredAppointments +
        timeOf ExistingAppointment.duration s.forcedRetentions := by
  intro threeHours booked r s
  have scheduled : (r.schedule 365 threeHours).result = .ok s := by cbv
  have admitted : r.Admitted := Sample.admitted (by decide)
  exact schedule_conserves_time admitted.allocation_isValid (by decide)
    (Sample.regular (by decide)) (by decide) scheduled

end Request
end UnpaidWork
