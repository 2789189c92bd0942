import Mathlib
import UnpaidWork.Proofs.Conservation
import UnpaidWork.Proofs.Runs

/-!
Which time a plan counts toward a requirement. What it creates, the appointments
it retains as required or forced, and its shortfall cover the remaining time
exactly, up to the overshoot of forced days. Retained appointments whose outcome
is recorded are part of that sum although their credit was taken off before, so
the sum without them can fall short, by exactly their time.
-/
namespace UnpaidWork

namespace Plan

/-- The time of the appointments that a plan retains for reasons that count. -/
def timeRetained (p : Plan) (counts : ExistingAppointment → RetainReason → Bool) : Int :=
  timeOf (fun entry => entry.1.duration) (p.retentions.filter fun entry => counts entry.1 entry.2)

/-- The time of the appointments that a plan creates. -/
def createdTime (p : Plan) : Int := timeOf RequiredAppointment.duration p.creations

/-- The time of the required and forced appointments that have no outcome yet. -/
def standingTime (p : Plan) : Int :=
  p.timeRetained fun a reason => reason ≠ .surplus && a.isUnresolved

/-- The time of the required and forced appointments whose outcome is recorded. -/
def resolvedTime (p : Plan) : Int :=
  p.timeRetained fun a reason => reason ≠ .surplus && a.hasOutcome

/-- The time of the appointments that a plan retains without needing them. -/
def surplusTime (p : Plan) : Int := p.timeRetained fun _ reason => reason = .surplus

end Plan

namespace Request
variable {r : Request} {h : UInt32} {remaining : Duration} {s : Schedule}

/-- The existing appointments that a plan needs: those that meet a required one,
and the forced ones. -/
def needed (r : Request) (s : Schedule) : List ExistingAppointment :=
  meeting r.existingAppointments (forcedIds s) s.requiredAppointments ++ s.forcedRetentions

theorem timeRetained_plan (r : Request) (s : Schedule) (test : ExistingAppointment → Bool) :
    (r.plan s).timeRetained (fun a reason => reason ≠ .surplus && test a) =
      timeOf ExistingAppointment.duration ((r.needed s).filter test) := by
  simp [Plan.timeRetained, retentions_plan, needed, List.filter_map, Function.comp_def,
    timeOf_map]

theorem surplusTime_plan (r : Request) (s : Schedule) :
    (r.plan s).surplusTime = timeOf ExistingAppointment.duration (r.surplus s) := by
  simp [Plan.surplusTime, Plan.timeRetained, retentions_plan, List.filter_map, Function.comp_def,
    timeOf_map]

/-- What is created and what is retained as required or forced is the schedule. -/
theorem createdTime_add_retained (r : Request) (s : Schedule) :
    (r.plan s).createdTime + (r.plan s).standingTime + (r.plan s).resolvedTime =
      timeOf RequiredAppointment.duration s.requiredAppointments +
        timeOf ExistingAppointment.duration s.forcedRetentions := by
  have settled := (settle_settled r.existingAppointments (forcedIds s) s.requiredAppointments).time
  have split := timeOf_filter_add ExistingAppointment.duration ExistingAppointment.isUnresolved
    (r.needed s)
  have resolved : (fun a => !a.isUnresolved) = ExistingAppointment.hasOutcome := by
    funext a
    simp [ExistingAppointment.isUnresolved]
  rw [resolved, needed, timeOf_append] at split
  rw [Plan.createdTime, Plan.standingTime, Plan.resolvedTime, timeRetained_plan,
    timeRetained_plan, creations_plan, needed]
  omega

theorem mem_taken_iff {id : Int64} :
    id ∈ (settle r.existingAppointments (forcedIds s) s.requiredAppointments).2 ↔
      ∃ a ∈ r.needed s, a.id = id := by
  have settled := settle_settled r.existingAppointments (forcedIds s) s.requiredAppointments
  have taken := settled.taken id
  rw [taken, needed, forcedIds]
  simp only [List.mem_append, List.mem_map, or_and_right, exists_or]
  exact or_comm

theorem mem_existing_of_needed (scheduled : (r.schedule h remaining).result = .ok s) :
    ∀ a ∈ r.needed s, a ∈ r.existingAppointments ∧ r.today ≤ a.date := by
  obtain ⟨dated, forced⟩ := schedule_coming scheduled
  intro a member
  rcases List.mem_append.mp member with met | kept
  · obtain ⟨present, q, required, same⟩ := (settle_settled _ _ _).meets a met
    rw [(RequiredAppointment.of_slot same).1]
    exact ⟨present, dated q required⟩
  · obtain ⟨present, coming⟩ := List.mem_filter.mp (forced.subset kept)
    simp only [Bool.and_eq_true, decide_eq_true_eq] at coming
    exact ⟨present, coming.2⟩

theorem needed_nodup (distinct : (r.existingAppointments.map (·.id)).Nodup)
    (scheduled : (r.schedule h remaining).result = .ok s) : (r.needed s).Nodup := by
  have settled := settle_settled r.existingAppointments (forcedIds s) s.requiredAppointments
  refine List.nodup_append'.mpr ⟨settled.distinct.of_map _, ?_, ?_⟩
  · have upcoming : r.upcomingUnresolved.Nodup := (distinct.of_map _).filter _
    obtain ⟨part, same, within⟩ := (schedule_coming scheduled).2
    exact same.nodup_iff.mp (within.nodup upcoming)
  · intro a met kept
    exact settled.untaken a met (List.mem_map_of_mem kept)

theorem needed_disjoint_surplus (r : Request) (s : Schedule) :
    (r.needed s).Disjoint (r.surplus s) := by
  intro a needed extra
  obtain ⟨-, untaken⟩ := List.mem_filter.mp extra
  rw [List.contains_eq_mem, decide_eq_true (mem_taken_iff.mpr ⟨a, needed, rfl⟩)] at untaken
  cases untaken

/-- Every coming appointment is needed or surplus, and not both. -/
theorem upcoming_perm (distinct : (r.existingAppointments.map (·.id)).Nodup)
    (scheduled : (r.schedule h remaining).result = .ok s) : r.upcomingUnresolved.Perm
    ((r.needed s).filter ExistingAppointment.isUnresolved ++ r.surplus s) := by
  have present := mem_existing_of_needed scheduled
  have upcoming : r.upcomingUnresolved.Nodup := (distinct.of_map _).filter _
  have surplus : (r.surplus s).Nodup := upcoming.filter _
  have apart : ((r.needed s).filter ExistingAppointment.isUnresolved).Disjoint (r.surplus s) :=
    fun a member => needed_disjoint_surplus r s (List.mem_filter.mp member).1
  rw [List.perm_ext_iff_of_nodup upcoming
    (List.nodup_append'.mpr ⟨(needed_nodup distinct scheduled).filter _, surplus, apart⟩)]
  intro a
  rw [List.mem_append]
  constructor
  · intro coming
    obtain ⟨member, unresolved⟩ := List.mem_filter.mp coming
    simp only [Bool.and_eq_true] at unresolved
    by_cases taken : ∃ b ∈ r.needed s, b.id = a.id
    · obtain ⟨b, needed, same⟩ := taken
      have equal : b = a := List.inj_on_of_nodup_map distinct (present b needed).1 member same
      rw [equal] at needed
      exact .inl (List.mem_filter.mpr ⟨needed, unresolved.1⟩)
    · refine .inr (List.mem_filter.mpr ⟨coming, ?_⟩)
      rw [← mem_taken_iff] at taken
      simp [List.contains_eq_mem, taken]
  · rintro (needed | extra)
    · obtain ⟨member, unresolved⟩ := List.mem_filter.mp needed
      obtain ⟨exists_, dated⟩ := present a member
      exact List.mem_filter.mpr ⟨exists_, by simp [unresolved, dated]⟩
    · exact (List.mem_filter.mp extra).1

/-- The coming appointments last as long as those that stand and the surplus. -/
theorem timeOf_upcomingUnresolved (distinct : (r.existingAppointments.map (·.id)).Nodup)
    (scheduled : (r.schedule h remaining).result = .ok s) :
    timeOf ExistingAppointment.duration r.upcomingUnresolved =
      (r.plan s).standingTime + (r.plan s).surplusTime := by
  rw [timeOf_perm (upcoming_perm distinct scheduled), timeOf_append, Plan.standingTime,
    timeRetained_plan, surplusTime_plan]

/-- The surplus has no outcome, so a plan retains resolved appointments only as needed. -/
theorem retained_unresolved_iff : (∀ entry ∈ (r.plan s).retentions, entry.1.isUnresolved) ↔
    (r.needed s).filter (·.hasOutcome) = [] := by
  have coming : ∀ a ∈ r.surplus s, a.isUnresolved := by
    intro a extra
    obtain ⟨-, chosen⟩ := List.mem_filter.mp (List.mem_filter.mp extra).1
    simp only [Bool.and_eq_true] at chosen
    exact chosen.1
  rw [List.filter_eq_nil_iff, retentions_plan]
  constructor
  · intro unresolved a member
    have standing : a.isUnresolved := by
      rcases List.mem_append.mp member with met | forced
      · exact unresolved (a, .required) (by simp [met])
      · exact unresolved (a, .forced) (by simp [forced])
    simpa [ExistingAppointment.isUnresolved] using standing
  · rintro unresolved ⟨a, reason⟩ member
    simp only [List.mem_append, List.mem_map, Prod.mk.injEq] at member
    rcases member with (⟨b, met, rfl, -⟩ | ⟨b, forced, rfl, -⟩) | ⟨b, extra, rfl, -⟩
    · simpa [ExistingAppointment.isUnresolved] using unresolved b (List.mem_append_left _ met)
    · simpa [ExistingAppointment.isUnresolved] using unresolved b (List.mem_append_right _ forced)
    · exact coming b extra

/-- Unless an appointment was changed, everything that a plan needs takes some
time, so the resolved appointments among it take none only if there are none. -/
theorem resolvedTime_nonpos_iff (exact : (r.simulation h).Exact)
    (unchanged : r.trigger.isAppointmentChange = false)
    (scheduled : (r.schedule h remaining).result = .ok s) :
    (r.plan s).resolvedTime ≤ 0 ↔ ∀ entry ∈ (r.plan s).retentions, entry.1.isUnresolved := by
  obtain ⟨p, reached, rfl⟩ := schedule_eq_ok.mp scheduled
  have nothingForced : p.conclude.forcedRetentions = [] := reached.forced_unchanged unchanged
  have positive : ∀ a ∈ (r.needed p.conclude).filter (·.hasOutcome), 0 < a.duration.nanos := by
    intro a chosen
    obtain ⟨met, -⟩ := List.mem_filter.mp chosen
    rw [needed, nothingForced, List.append_nil] at met
    obtain ⟨-, q, required, slot⟩ := (settle_settled _ _ _).meets a met
    rw [(RequiredAppointment.of_slot slot).2.1]
    rcases reached.granted exact q required with before | ⟨positive, -⟩
    · cases before
    · exact positive
  rw [retained_unresolved_iff, Plan.resolvedTime, timeRetained_plan]
  constructor
  · exact eq_nil_of_timeOf_nonpos positive
  · intro none
    rw [none]
    exact Int.le_refl 0

/-- A plan covers the remaining time without counting resolved appointments
exactly when those that it retains as needed last no longer than its overshoot.
Unless an appointment was changed, this means that it retains none of them.
Where a run calls the existing appointments sufficient, the coming ones suffice
under the same condition, up to the surplus. -/
theorem plan_covers_remaining_iff (admitted : r.Admitted) (regular : r.Regular)
    (distinct : (r.existingAppointments.map (·.id)).Nodup)
    (left : (remainingRequirement r.today r.requirement r.existingAppointments).result =
      .ok remaining)
    (positive : 0 < remaining.nanos) (scheduled : (r.schedule h remaining).result = .ok s) :
    0 ≤ s.overshoot remaining ∧
    (remaining.nanos ≤
        (r.plan s).createdTime + (r.plan s).standingTime + (r.plan s).shortfall.nanos ↔
      (r.plan s).resolvedTime ≤ s.overshoot remaining) ∧
    (r.trigger.isAppointmentChange = false → s.overshoot remaining = 0 ∧
      ((r.plan s).resolvedTime ≤ 0 ↔ ∀ entry ∈ (r.plan s).retentions, entry.1.isUnresolved)) ∧
    ((r.producePlan h).result = .ok .existingAppointmentsSufficient →
      (remaining.nanos ≤ timeOf ExistingAppointment.duration r.upcomingUnresolved ↔
        (r.plan s).resolvedTime ≤ s.overshoot remaining + (r.plan s).surplusTime)) := by
  have exact := admitted.exact regular h
  have counted := createdTime_add_retained r s
  have overshoot : s.overshoot remaining = (r.plan s).createdTime + (r.plan s).standingTime +
      (r.plan s).resolvedTime + s.shortfall.nanos - remaining.nanos := by
    rw [Schedule.overshoot, counted]
  refine ⟨overshoot_nonneg exact scheduled, ?_, fun unchanged => ⟨?_, ?_⟩, ?_⟩
  · rw [shortfall_plan, overshoot]
    omega
  · exact overshoot_eq_zero exact unchanged (Int.le_of_lt positive) scheduled
  · exact resolvedTime_nonpos_iff exact unchanged scheduled
  · intro sufficient
    obtain ⟨s', plans, verdict⟩ := plans_of_left left positive sufficient
    -- The run computed the same schedule.
    cases scheduled.symm.trans plans.scheduled
    obtain ⟨nothing, closed⟩ := Plan.verdict_eq_sufficient.mp verdict
    have created : (r.plan s).createdTime = 0 := by rw [Plan.createdTime, nothing, timeOf_nil]
    have open_ := shortfall_nonneg scheduled
    rw [shortfall_plan] at closed
    rw [timeOf_upcomingUnresolved distinct scheduled]
    omega

/-- A booked Monday and one to be made, for four hours. -/
theorem plan_covers_four_hours :
    let r := Sample.request .manual .weekly Sample.fourHours [Sample.booking 7 Sample.monday]
    let s : Schedule := ⟨[Sample.slot Sample.monday, Sample.slot Sample.nextMonday], [], .zero⟩
    0 ≤ s.overshoot Sample.fourHours ∧
    (Sample.fourHours.nanos ≤
        (r.plan s).createdTime + (r.plan s).standingTime + (r.plan s).shortfall.nanos ↔
      (r.plan s).resolvedTime ≤ s.overshoot Sample.fourHours) ∧
    (r.trigger.isAppointmentChange = false → s.overshoot Sample.fourHours = 0 ∧
      ((r.plan s).resolvedTime ≤ 0 ↔ ∀ entry ∈ (r.plan s).retentions, entry.1.isUnresolved)) ∧
    ((r.producePlan 365).result = .ok .existingAppointmentsSufficient →
      (Sample.fourHours.nanos ≤ timeOf ExistingAppointment.duration r.upcomingUnresolved ↔
        (r.plan s).resolvedTime ≤ s.overshoot Sample.fourHours + (r.plan s).surplusTime)) := by
  intro r s
  have left : (remainingRequirement r.today r.requirement r.existingAppointments).result =
      .ok Sample.fourHours := by
    cbv
  have scheduled : (r.schedule 365 Sample.fourHours).result = .ok s := by cbv
  exact plan_covers_remaining_iff (Sample.admitted (by decide)) (Sample.regular (by decide))
    (by decide) left (by decide) scheduled

/-- Two of four hours are left after today's appointment was attended, but the
run takes this same appointment for the two hours and finds nothing missing. -/
theorem attended_appointment_counts_twice :
    let attended := (Sample.booking 7 Sample.monday).withOutcome (some Sample.twoHours)
    let r := Sample.request .manual .weekly Sample.fourHours [attended]
    let s : Schedule := ⟨[Sample.slot Sample.monday], [], .zero⟩
    r.Admitted ∧ r.Regular ∧ (r.existingAppointments.map (·.id)).Nodup ∧
      (remainingRequirement r.today r.requirement r.existingAppointments).result =
        .ok Sample.twoHours ∧
      (r.schedule 365 Sample.twoHours).result = .ok s ∧
      (r.plan s).createdTime + (r.plan s).standingTime + (r.plan s).shortfall.nanos <
        Sample.twoHours.nanos ∧
      (r.producePlan 365).result = .ok .existingAppointmentsSufficient ∧
      r.upcomingUnresolved = [] := by
  intro attended r s
  refine ⟨Sample.admitted (by decide), Sample.regular (by decide), by decide, by cbv, by cbv, ?_,
    by cbv, by decide⟩
  decide

end Request
end UnpaidWork
