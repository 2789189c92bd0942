import UnpaidWork.Proofs.BookedDays
import UnpaidWork.Proofs.Effects
import UnpaidWork.Proofs.PassingDays

/-!
The order in which allocations and appointments are listed. The simulation sorts
both by slot and id, which no two of them share, so it works on the same lists
whatever the order was. A plan meets required appointments by the first existing
ones listed that fit, and thus may retain other ones in another order; but which
slots are open does not change, nor does what is left to create.
-/
namespace UnpaidWork

/-- Things with different ids are sorted by their slots in one way only. -/
theorem mergeSort_slotOrder_eq_of_perm {α : Type} (start : α → TimeOfDay) (id : α → Int64)
    {items others : List α} (distinct : (items.map id).Nodup) (same : others.Perm items) :
    others.mergeSort (fun a b => slotOrder (start a) (id a) (start b) (id b)) =
      items.mergeSort fun a b => slotOrder (start a) (id a) (start b) (id b) := by
  refine List.Perm.eq_of_pairwise ?_ (mergeSort_slotOrder start id others)
    (mergeSort_slotOrder start id items) ?_
  · intro a b one two before after
    have one := same.subset ((List.mergeSort_perm _ _).subset one)
    have two := (List.mergeSort_perm _ _).subset two
    refine List.inj_on_of_nodup_map distinct one two ?_
    rw [slotOrder_iff, TimeOfDay.lt_iff, ← TimeOfDay.rank_inj, Int64.le_iff_toInt_le] at before
    rw [slotOrder_iff, TimeOfDay.lt_iff, ← TimeOfDay.rank_inj, Int64.le_iff_toInt_le] at after
    exact Int64.toInt_inj.mp (by omega)
  · exact (List.mergeSort_perm _ _).trans (same.trans (List.mergeSort_perm _ _).symm)

theorem unresolvedOn_eq_of_perm {existing others : List ExistingAppointment}
    (distinct : (existing.map (·.id)).Nodup) (same : others.Perm existing) (day : Date) :
    unresolvedOn others day = unresolvedOn existing day := by
  refine mergeSort_slotOrder_eq_of_perm _ _ ?_ (same.filter _)
  exact distinct.sublist (List.filter_sublist.map _)

section Settling
variable {existing others : List ExistingAppointment} {taken taken' : List Int64}
variable {required : List RequiredAppointment} {r : RequiredAppointment}

/-- Something free meets a required appointment exactly if its slot is open. -/
theorem free?_eq_none_iff (distinct : (existing.map (·.id)).Nodup) :
    free? existing taken r = none ↔ r ∉ openSlots existing taken := by
  constructor
  · exact not_mem_openSlots
  · intro closed
    refine Option.eq_none_iff_forall_ne_some.mpr fun a found => closed ?_
    exact (openSlots_perm_cons distinct found).symm.subset List.mem_cons_self

/-- What is created depends on which slots are open, and not on who fills them. -/
theorem missing_eq_of_openSlots (distinct : (existing.map (·.id)).Nodup)
    (distinct' : (others.map (·.id)).Nodup)
    (same : (openSlots others taken').Perm (openSlots existing taken)) :
    missing others taken' required = missing existing taken required := by
  induction required generalizing taken taken' with
  | nil => rfl
  | cons r rest ih =>
    cases found : free? existing taken r with
    | none =>
      have closed := (free?_eq_none_iff distinct).mp found
      have unmet := (free?_eq_none_iff distinct').mpr fun member => closed (same.subset member)
      rw [missing_cons_of_none found, missing_cons_of_none unmet, ih same]
    | some a =>
      cases met : free? others taken' r with
      | none =>
        have closed := (free?_eq_none_iff distinct').mp met
        have none := (free?_eq_none_iff distinct).mpr fun member =>
          closed (same.symm.subset member)
        rw [none] at found
        cases found
      | some b =>
        have opened := openSlots_perm_cons distinct found
        have opened' := openSlots_perm_cons distinct' met
        rw [missing_cons_of_some found, missing_cons_of_some met]
        exact ih ((opened'.symm.trans (same.trans opened)).cons_inv)

theorem missing_eq_of_perm (distinct : (existing.map (·.id)).Nodup) (same : others.Perm existing) :
    missing others taken required = missing existing taken required := by
  refine missing_eq_of_openSlots distinct ((same.map _).nodup_iff.mpr distinct) ?_
  exact (same.filter _).filterMap _

end Settling

/-- The same request with its allocations and appointments listed in another order. -/
structure Request.Reorders (r r' : Request) : Prop where
  today : r'.today = r.today
  trigger : r'.trigger = r.trigger
  requirement : r'.requirement = r.requirement
  allocations : r'.allocations.Perm r.allocations
  appointments : r'.existingAppointments.Perm r.existingAppointments
  calendar : r'.nonWorkingDates = r.nonWorkingDates

/-! The simulation -/

/-- Simulations that agree on today and the calendar, on how far they look, on the
sorted allocations and on the bookings of each day go the same way. -/
theorem Simulation.walk_congr {sim sim' : Simulation}
    (today : sim'.request.today = sim.request.today)
    (calendar : sim'.request.nonWorkingDates = sim.request.nonWorkingDates)
    (horizon : sim'.maxHorizonDays = sim.maxHorizonDays)
    (allocations : sim'.allocations = sim.allocations) (booked : sim'.booked = sim.booked)
    (start : Option Date) (p : Progress) (told : List Event) :
    sim'.walk start p told = sim.walk start p told := by
  have visit : sim'.visit = sim.visit := by
    funext day p
    simp only [Simulation.visit, applicable, today, horizon, allocations, booked]
  induction start, p, told using walk.induct sim with
  | case1 p told => rw [walk, walk]
  | case2 p told day events cause visited => rw [walk, walk, visit, visited]
  | case3 p told day events visited => rw [walk, walk, visit, visited]
  | case4 p told day events q visited ih =>
    rw [walk, walk, visit, visited, calendar]
    exact ih

/-! Two outcomes -/

/-- Two outcomes come to the same, up to which of some equal appointments they
retain: same kind, same creations, same shortfall, and the same calls when they
are carried out. -/
structure Outcome.Agree (o o' : Outcome) : Prop where
  name : o'.name = o.name
  creations : o'.plan?.map Plan.creations = o.plan?.map Plan.creations
  shortfall : o'.plan?.map Plan.shortfall = o.plan?.map Plan.shortfall
  calls : ∀ (crn : String) (requirementId : Int64) (dryRun : Bool) (σ : Type)
    (around : Surroundings σ) (before : σ),
    ((Service.carryOut crn requirementId dryRun o').runIn around before).calls =
      ((Service.carryOut crn requirementId dryRun o).runIn around before).calls

theorem Outcome.Agree.rfl {o : Outcome} : o.Agree o :=
  ⟨Eq.refl _, Eq.refl _, Eq.refl _, fun _ _ _ _ _ _ => Eq.refl _⟩

/-- To carry out an outcome with a plan is to have its creations made. -/
theorem Service.calls_carryOut {σ : Type} (around : Surroundings σ) (before : σ) (crn : String)
    (requirementId : Int64) {outcome : Outcome} {plan : Plan}
    (planned : outcome.plan? = some plan) :
    ((carryOut crn requirementId false outcome).runIn around before).calls =
      ((createAll crn requirementId plan.groupByProject).runIn around before).calls := by
  simp only [carryOut, planned, Bool.false_eq_true, if_false, Procedure.runIn_bind, Run.andThen]
  split
  · exact List.append_nil _
  · rfl

namespace Plan
variable {p p' : Plan}

theorem insufficient_agree (creations : p'.creations = p.creations)
    (shortfall : p'.shortfall = p.shortfall) : Outcome.Agree
      (.existingAppointmentsInsufficient p) (.existingAppointmentsInsufficient p') := by
  refine ⟨rfl, congrArg some creations, congrArg some shortfall, ?_⟩
  intro crn requirementId dryRun σ around before
  have groups : p'.groupByProject = p.groupByProject := by
    simp only [groupByProject, projectCodes, creations]
  cases dryRun with
  | true => rfl
  | false =>
    have calls (plan : Plan) : ((Service.carryOut crn requirementId false
        (.existingAppointmentsInsufficient plan)).runIn around before).calls = _ :=
      Service.calls_carryOut around before crn requirementId rfl
    rw [calls, calls, groups]

/-- Plans with the same creations and the same shortfall amount to the same. -/
theorem verdict_agree (creations : p'.creations = p.creations)
    (shortfall : p'.shortfall = p.shortfall) : p.verdict.Agree p'.verdict := by
  have created : p'.hasCreations = p.hasCreations := by rw [hasCreations, hasCreations, creations]
  have short : p'.hasShortfall = p.hasShortfall := by rw [hasShortfall, hasShortfall, shortfall]
  rw [verdict, verdict, created, short]
  split
  · exact .rfl
  · exact insufficient_agree creations shortfall

end Plan

/-! Two runs -/

namespace Request
variable {r r' : Request} {h : UInt32} {left left' : Duration} {o o' : Outcome}

theorem Reorders.booked (reordered : r.Reorders r')
    (distinct : (r.existingAppointments.map (·.id)).Nodup) :
    (r'.simulation h).booked = (r.simulation h).booked := by
  funext day
  rw [Simulation.booked, Simulation.booked, simulation, simulation, reordered.trigger,
    unresolvedOn_eq_of_perm distinct reordered.appointments]

/-- The whole schedule and its log stay the same. -/
theorem Reorders.schedule (reordered : r.Reorders r')
    (distinctAllocations : (r.allocations.map (·.id)).Nodup)
    (distinct : (r.existingAppointments.map (·.id)).Nodup) (h : UInt32) (remaining : Duration) :
    r'.schedule h remaining = r.schedule h remaining := by
  have allocations : sortAllocations r'.allocations = sortAllocations r.allocations :=
    mergeSort_slotOrder_eq_of_perm _ _ distinctAllocations reordered.allocations
  have walk (start : Option Date) (p : Progress) (told : List Event) :
      (r'.simulation h).walk start p told = (r.simulation h).walk start p told := by
    apply Simulation.walk_congr
    · exact reordered.today
    · exact reordered.calendar
    · rfl
    · exact allocations
    · exact reordered.booked distinct
  simp only [Request.schedule, reordered.today, reordered.calendar]
  change (r'.simulation h).walk _ _ _ >>= _ = (r.simulation h).walk _ _ _ >>= _
  rw [walk]

/-- What remains does not depend on the order, unless one of the sums overflows. -/
theorem Reorders.remaining (reordered : r.Reorders r')
    (computed : (remainingRequirement r.today r.requirement r.existingAppointments).result =
      .ok left)
    (computed' : (remainingRequirement r'.today r'.requirement r'.existingAppointments).result =
      .ok left') : left' = left := by
  apply Duration.ext
  rw [nanos_remainingRequirement computed, nanos_remainingRequirement computed', reordered.today,
    reordered.requirement, timeOf_perm (reordered.appointments.filter _),
    timeOf_perm (reordered.appointments.filter _)]

theorem exists_remaining (produced : (r.producePlan h).result = .ok o) :
    ∃ left, (remainingRequirement r.today r.requirement r.existingAppointments).result =
      .ok left := by
  simp only [producePlan, Traced.result_bind, bind_eq_ok] at produced
  obtain ⟨_, -, left, computed, -⟩ := produced
  exact ⟨left, computed⟩

theorem Reorders.creations (reordered : r.Reorders r')
    (distinct : (r.existingAppointments.map (·.id)).Nodup) (s : Schedule) :
    (r'.plan s).creations = (r.plan s).creations := by
  rw [creations_plan, creations_plan, missing_eq_of_perm distinct reordered.appointments]

/-- Runs on the same lists in another order come to the same. -/
theorem Reorders.agree (reordered : r.Reorders r')
    (distinctAllocations : (r.allocations.map (·.id)).Nodup)
    (distinct : (r.existingAppointments.map (·.id)).Nodup)
    (produced : (r.producePlan h).result = .ok o)
    (produced' : (r'.producePlan h).result = .ok o') : o.Agree o' := by
  obtain ⟨left, computed⟩ := exists_remaining produced
  obtain ⟨left', computed'⟩ := exists_remaining produced'
  cases reordered.remaining computed computed'
  rw [producePlan_of_left computed] at produced
  rw [producePlan_of_left computed'] at produced'
  split at produced
  · rename_i met
    rw [if_pos met] at produced'
    cases produced
    cases produced'
    exact .rfl
  · rename_i unmet
    rw [if_neg unmet] at produced'
    obtain ⟨s, scheduled, -, rfl⟩ := planRemaining_eq_ok.mp produced
    obtain ⟨s', scheduled', -, rfl⟩ := planRemaining_eq_ok.mp produced'
    rw [reordered.schedule distinctAllocations distinct, scheduled] at scheduled'
    cases scheduled'
    exact Plan.verdict_agree (reordered.creations distinct s) rfl

/-- Reordered allocations leave a run as it was. -/
theorem Reorders.producePlan (reordered : r.Reorders r')
    (distinctAllocations : (r.allocations.map (·.id)).Nodup)
    (distinct : (r.existingAppointments.map (·.id)).Nodup)
    (same : r'.existingAppointments = r.existingAppointments) :
    r'.producePlan h = r.producePlan h := by
  have plan : r'.plan = r.plan := by
    funext s
    simp only [Request.plan, upcomingUnresolved, reordered.today, same]
  have planRemaining : r'.planRemaining h = r.planRemaining h := by
    funext remaining
    simp only [Request.planRemaining, plan, reordered.schedule distinctAllocations distinct]
  simp only [Request.producePlan, planRemaining, same, reordered.today, reordered.trigger,
    reordered.requirement, reordered.allocations.length_eq]

/-- The order in which allocations and appointments are listed does not matter.
Allocations in another order leave a run as it was, its log included. In another
order of the appointments the remaining time and the schedule are the same, and
the outcomes agree in all but which of some equal appointments are retained. -/
theorem input_order_does_not_matter (reordered : r.Reorders r')
    (distinctAllocations : (r.allocations.map (·.id)).Nodup)
    (distinct : (r.existingAppointments.map (·.id)).Nodup) :
    (r'.existingAppointments = r.existingAppointments → r'.producePlan h = r.producePlan h) ∧
    ∀ o o', (r.producePlan h).result = .ok o → (r'.producePlan h).result = .ok o' →
      (remainingRequirement r'.today r'.requirement r'.existingAppointments).result =
        (remainingRequirement r.today r.requirement r.existingAppointments).result ∧
      (∀ h remaining, r'.schedule h remaining = r.schedule h remaining) ∧ o.Agree o' := by
  refine ⟨reordered.producePlan distinctAllocations distinct, fun o o' produced produced' => ?_⟩
  obtain ⟨left, computed⟩ := exists_remaining produced
  obtain ⟨left', computed'⟩ := exists_remaining produced'
  refine ⟨?_, reordered.schedule distinctAllocations distinct,
    reordered.agree distinctAllocations distinct produced produced'⟩
  rw [computed, computed', reordered.remaining computed computed']

/-- A Monday is booked twice. Whichever booking is listed first is the one that is
needed, and the other is surplus; the next Monday is created in either order. -/
theorem either_booking_is_needed :
    let request (first second : Int64) := Sample.request .manual .weekly Sample.fourHours
      [Sample.booking first Sample.monday, Sample.booking second Sample.monday]
    let outcome (needed surplus : Int64) : Outcome := .existingAppointmentsInsufficient
      ⟨[.retain (Sample.booking needed Sample.monday) .required,
        .create (Sample.slot Sample.nextMonday),
        .retain (Sample.booking surplus Sample.monday) .surplus], .zero⟩
    ((request 9 8).producePlan 365).result = .ok (outcome 9 8) ∧
      ((request 8 9).producePlan 365).result = .ok (outcome 8 9) ∧
      (∀ h remaining, (request 8 9).schedule h remaining = (request 9 8).schedule h remaining) ∧
      (outcome 9 8).Agree (outcome 8 9) := by
  intro request outcome
  have produced : ((request 9 8).producePlan 365).result = .ok (outcome 9 8) := by cbv
  have produced' : ((request 8 9).producePlan 365).result = .ok (outcome 8 9) := by cbv
  have reordered : (request 9 8).Reorders (request 8 9) :=
    ⟨rfl, rfl, rfl, .refl _, .swap _ _ _, rfl⟩
  have same := input_order_does_not_matter (h := 365) reordered (by decide) (by decide)
  exact ⟨produced, produced', (same.2 _ _ produced produced').2⟩

end Request
end UnpaidWork
