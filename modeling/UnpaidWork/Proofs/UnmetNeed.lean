import UnpaidWork.Proofs.PassingDays
import UnpaidWork.Proofs.WholeMinutes
import UnpaidWork.Report

/-!
How an unmet need is told. The scheduler decides on exact durations; reports and
plans tell whole minutes, cut toward zero. All durations in a request that was
read are whole minutes, so only times of day can bring in less. Where they do not,
what is left open is at least a minute and is told as such. Less than a minute is
told as none, and only the name of the outcome still tells of it.
-/
namespace UnpaidWork

/-! What remains in whole minutes -/

namespace Duration

theorem isWhole_min {a b : Duration} (first : a.IsWhole) (second : b.IsWhole) :
    (a.min b).IsWhole := by
  unfold min
  split
  · exact first
  · exact second

/-- Whole durations last whole minutes together. -/
theorem minute_dvd_timeOf {α : Type} {length : α → Duration} {items : List α}
    (whole : ∀ item ∈ items, (length item).IsWhole) : minute ∣ timeOf length items := by
  induction items with
  | nil => exact Int.dvd_zero minute
  | cons first rest ih =>
    obtain ⟨own, others⟩ := List.forall_mem_cons.mp whole
    rw [timeOf_cons]
    exact Int.dvd_add own (ih others)

/-- The whole minutes of what is left open are the most that it has. -/
theorem wholeMinutes_of_pos {d : Duration} (positive : 0 < d.nanos) :
    d.wholeMinutes * minute ≤ d.nanos ∧ d.nanos < (d.wholeMinutes + 1) * minute := by
  rw [wholeMinutes, Int.tdiv_eq_ediv_of_nonneg (Int.le_of_lt positive), minute]
  omega

end Duration
open Duration

namespace Progress
variable {day : Date} {usable : List Allocation} {p q : Progress}

theorem grant_isWhole (uses : ∀ a ∈ usable, a.duration.IsWhole) (whole : p.remaining.IsWhole)
    (granted : (grant day usable p).result = .ok q) : q.remaining.IsWhole := by
  induction usable generalizing p with
  | nil =>
    cases granted
    exact whole
  | cons a rest ih =>
    obtain ⟨own, others⟩ := List.forall_mem_cons.mp uses
    rcases grant_cons granted with ⟨-, rfl⟩ | ⟨-, left, subtracted, later⟩
    · exact whole
    · refine ih others ?_ later
      rw [IsWhole, subtracted]
      exact Int.dvd_sub whole (isWhole_min whole own)

end Progress

namespace Simulation
variable {sim : Simulation} {start : Option Date} {day : Date} {p q final : Progress}

/-- The uses of allocations, and the bookings that may be kept, last whole minutes. -/
structure InWholeMinutes (sim : Simulation) : Prop where
  uses : ∀ a ∈ sim.allocations, a.duration.IsWhole
  bookings : ∀ day, ∀ b ∈ sim.booked day, b.duration.IsWhole

theorem Passes.isWhole (even : sim.InWholeMinutes) (passed : sim.Passes day p q)
    (whole : p.remaining.IsWhole) : q.remaining.IsWhole := by
  cases passed with
  | idle => exact whole
  | keeps _ _ kept =>
    obtain ⟨remaining, -, -⟩ := Progress.keepBooked_appends kept
    rw [IsWhole, remaining]
    exact Int.dvd_sub whole (minute_dvd_timeOf (even.bookings day))
  | grants _ _ granted =>
    exact Progress.grant_isWhole (fun a member => even.uses a (List.mem_filter.mp member).1) whole
      granted

theorem Reaches.isWhole (even : sim.InWholeMinutes) (reached : sim.Reaches start p final)
    (whole : p.remaining.IsWhole) : final.remaining.IsWhole := by
  induction reached with
  | calendarEnds => exact whole
  | stops => exact whole
  | passes _ passed _ ih => exact ih (passed.isWhole even whole)

end Simulation

/-! What is told -/

/-- A plan tells of an unmet need: its outcome is named for it in reports, and the
report and the plan's JSON both give the same minutes, those of the shortfall cut
toward zero. -/
structure Plan.TellsUnmetNeed (p : Plan) (minutes : Int) : Prop where
  unmet : 0 < p.shortfall.nanos
  cut : minutes * Duration.minute ≤ p.shortfall.nanos ∧
    p.shortfall.nanos < (minutes + 1) * Duration.minute
  reported : ∀ runId crn requirementId kind dryRun,
    let report := Report.ofOutcome runId crn requirementId kind
      (.existingAppointmentsInsufficient p) dryRun
    report.outcome = "ExistingAppointmentsInsufficient" ∧ report.shortfallMinutes = minutes
  written : ∃ actions,
    Wire.plan.write p = .object [("actions", actions), ("shortfall", .integer minutes)]

/-- Whatever times of day a run may count from lie whole minutes apart: those of
allocations, of appointments that count as worked, and of those that may be kept. -/
structure Request.InWholeMinutes (r : Request) : Prop where
  allocations : ∀ a ∈ r.allocations, a.duration.IsWhole
  appointments : ∀ b ∈ r.existingAppointments, b.isUnresolved →
    b.date < r.today ∨ r.trigger.isAppointmentChange → b.duration.IsWhole

theorem Plan.tellsUnmetNeed {p : Plan} (unmet : 0 < p.shortfall.nanos) :
    p.TellsUnmetNeed p.shortfall.wholeMinutes where
  unmet := unmet
  cut := Duration.wholeMinutes_of_pos unmet
  reported _ _ _ _ _ := ⟨rfl, rfl⟩
  written := ⟨_, rfl⟩

namespace Request
variable {r : Request} {h : UInt32} {remaining : Duration} {s : Schedule} {p : Plan}

theorem InWholeMinutes.simulation (even : r.InWholeMinutes) :
    (r.simulation h).InWholeMinutes where
  uses a member := even.allocations a (mem_simulation_allocations.mp member)
  bookings day b member := by
    obtain ⟨listed, unresolved, -⟩ := Simulation.mem_booked member
    refine even.appointments b listed unresolved (.inr ?_)
    by_contra unchanged
    rw [Simulation.booked_eq_nil (Bool.eq_false_iff.mpr unchanged)] at member
    cases member

theorem InWholeMinutes.isWhole_remaining (even : r.InWholeMinutes)
    (stated : ∀ d ∈ r.stated, d.IsWhole)
    (computed : (remainingRequirement r.today r.requirement r.existingAppointments).result =
      .ok remaining) : remaining.IsWhole := by
  obtain ⟨requirement, credits⟩ := List.forall_mem_cons.mp stated
  rw [IsWhole, nanos_remainingRequirement computed]
  refine Int.dvd_sub (Int.dvd_sub requirement (minute_dvd_timeOf fun b member => ?_))
    (minute_dvd_timeOf fun b member => ?_)
  · obtain ⟨listed, chosen⟩ := List.mem_filter.mp member
    simp only [Bool.and_eq_true, decide_eq_true_eq] at chosen
    exact even.appointments b listed chosen.1 (.inl chosen.2)
  · obtain ⟨listed, -⟩ := List.mem_filter.mp member
    cases credit : b.credit with
    | none =>
      rw [ExistingAppointment.credited, credit]
      exact Int.dvd_zero minute
    | some credit' =>
      rw [ExistingAppointment.credited, credit]
      refine credits credit' (List.mem_flatMap.mpr ⟨b, listed, ?_⟩)
      simp [ExistingAppointment.stated, credit]

theorem InWholeMinutes.isWhole_shortfall (even : r.InWholeMinutes) (whole : remaining.IsWhole)
    (scheduled : (r.schedule h remaining).result = .ok s) : s.shortfall.IsWhole := by
  obtain ⟨p, reached, rfl⟩ := schedule_eq_ok.mp scheduled
  have last := reached.isWhole even.simulation whole
  rw [IsWhole, p.nanos_shortfall]
  rcases Int.le_total 0 p.remaining.nanos with positive | negative
  · rwa [Int.max_eq_right positive]
  · rw [Int.max_eq_left negative]
    exact Int.dvd_zero minute

/-- If a request that was read needs more than it has, and nothing is to be
created, then something is left open. Report and plan tell it in whole minutes,
cut toward zero, so they tell of less than a minute as none. There is a minute at
least if all that a run may count lasts whole minutes. -/
theorem unmet_need_is_told {text : List Char} (read : Wire.request.readText text = .ok r)
    (insufficient : (r.producePlan h).result = .ok (.existingAppointmentsInsufficient p))
    (nothing : p.creations = []) :
    ∃ minutes, p.TellsUnmetNeed minutes ∧ (r.InWholeMinutes → 1 ≤ minutes) := by
  have stated := Wire.gives_of_readText Wire.request_gives read
  obtain ⟨remaining, s, plans, planned⟩ := plans_of_insufficient insufficient
  have verdict := (producePlan_of_plans plans).symm.trans insufficient
  have unmet : 0 < p.shortfall.nanos := by
    rw [planned] at verdict
    obtain ⟨unsettled, -⟩ := Plan.verdict_eq_insufficient.mp (Except.ok.inj verdict)
    exact Int.not_le.mp fun settled => unsettled ⟨nothing, settled⟩
  refine ⟨_, Plan.tellsUnmetNeed unmet, fun even => ?_⟩
  have whole : p.shortfall.IsWhole := by
    rw [← planned]
    exact even.isWhole_shortfall (even.isWhole_remaining stated plans.left) plans.scheduled
  obtain ⟨minutes, exact⟩ := whole
  have cut := Duration.wholeMinutes_of_pos unmet
  simp only [minute] at exact cut
  omega

/-- A single Monday is all there is for four hours, and it is booked: two hours are
left open, and told. -/
theorem two_hours_are_told :
    let r := Sample.request .manual .once Sample.fourHours [Sample.booking 7 Sample.monday]
    let p : Plan := ⟨[.retain (Sample.booking 7 Sample.monday) .required], Sample.twoHours⟩
    Wire.request.readText (Wire.request.writeText r) = .ok r ∧
      (r.producePlan 365).result = .ok (.existingAppointmentsInsufficient p) ∧ p.creations = [] ∧
      r.InWholeMinutes ∧ ∃ minutes, p.TellsUnmetNeed minutes ∧ 1 ≤ minutes := by
  intro r p
  have trips : Wire.request.RoundTrips Request.contents :=
    Wire.request_faithful.roundTrips (by decide)
  have stated : ∀ d ∈ r.stated, d.IsWhole := by decide
  have read := trips.whole r (by decide) stated
  have insufficient : (r.producePlan 365).result = .ok (.existingAppointmentsInsufficient p) := by
    cbv
  have even : r.InWholeMinutes := ⟨by decide, by decide⟩
  obtain ⟨minutes, told, some⟩ := unmet_need_is_told read insufficient rfl
  exact ⟨read, insufficient, rfl, even, minutes, told, some even⟩

/-- An appointment of half a minute counts as worked for a requirement of one, and
there are no allocations. The half that is left open is told as none. -/
theorem half_a_minute_is_told_as_none :
    let worked : ExistingAppointment :=
      { Sample.booking 7 Sample.monday with endTime := .wrap 36030 0 }
    let r : Request := ⟨Sample.nextMonday, ⟨.manual, ""⟩, ⟨60000000000, by decide⟩, [], [worked],
      .empty⟩
    let p : Plan := ⟨[], ⟨30000000000, by decide⟩⟩
    Wire.request.readText (Wire.request.writeText r) = .ok r ∧ r.Admitted ∧
      (r.producePlan 365).result = .ok (.existingAppointmentsInsufficient p) ∧ p.creations = [] ∧
      p.TellsUnmetNeed 0 := by
  intro worked r p
  have trips : Wire.request.RoundTrips Request.contents :=
    Wire.request_faithful.roundTrips (by decide)
  have admitted : r.Admitted :=
    admitted_of_valid (fun a member => absurd member List.not_mem_nil) (by decide)
  have read := trips.whole r (by decide) (by decide)
  exact ⟨read, admitted, by cbv, rfl, Plan.tellsUnmetNeed (by decide)⟩

end Request
end UnpaidWork
