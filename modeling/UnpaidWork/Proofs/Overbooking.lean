import UnpaidWork.Proofs.Accounting
import UnpaidWork.Proofs.Replay

/-!
A retry after an appointment was changed. If only a part of a day was made, the
second run keeps that part and grants nothing more on this day, so it works off
the requirement later than the first run did: on every day it has at least as
much left. Therefore it reaches everything that was made before nothing remains,
and what it creates in addition still fits into the remaining time.
-/
namespace UnpaidWork

namespace Simulation
variable {sim : Simulation} {start : Option Date} {day : Date} {p q p' q' final final' : Progress}
variable {given later made : List RequiredAppointment}
variable {entries now coming : List ExistingAppointment}

/-- From one progress to another a run keeps `now` and requires `given` anew, and
both fit into the time that remained. -/
structure Fits (p q : Progress) (now : List ExistingAppointment)
    (given : List RequiredAppointment) : Prop where
  required : q.required = p.required ++ given
  kept : p.forced ++ now ⊆ q.forced
  time : timeOf ExistingAppointment.duration now + timeOf RequiredAppointment.duration given +
    max 0 q.remaining.nanos ≤ max 0 p.remaining.nanos

theorem Fits.rfl : Fits p p [] [] :=
  ⟨(List.append_nil _).symm, by simp, by simp⟩

theorem Fits.trans {more : List RequiredAppointment} (first : Fits p q now given)
    (rest : Fits q final coming more) : Fits p final (now ++ coming) (given ++ more) := by
  refine ⟨?_, ?_, ?_⟩
  · rw [rest.required, first.required, List.append_assoc]
  · intro b member
    rw [← List.append_assoc, List.mem_append] at member
    rcases member with before | after
    · exact rest.kept (List.mem_append_left _ (first.kept before))
    · exact rest.kept (List.mem_append_right _ after)
  · have := first.time
    have := rest.time
    rw [timeOf_append, timeOf_append]
    omega

/-- What a day requires fits into what remained before it. -/
theorem Passes.fits (exact : sim.Exact) (goesOn : sim.GoesOn day p)
    (passed : sim.Passes day p q) : ∃ given, Fits p q [] given := by
  cases passed with
  | idle => exact ⟨[], .rfl⟩
  | keeps _ _ kept =>
    obtain ⟨remaining, required, forced⟩ := Progress.keepBooked_appends kept
    have bookings : 0 ≤ timeOf ExistingAppointment.duration (sim.booked day) :=
      timeOf_nonneg exact.proper_of_booked
    refine ⟨[], by rw [required, List.append_nil], by simp [forced], ?_⟩
    rw [timeOf_nil, timeOf_nil]
    omega
  | grants _ _ granted =>
    obtain ⟨given, grants⟩ := Progress.grant_grants exact.divisible_of_applicable
      (Int.le_of_lt goesOn.remains) granted
    refine ⟨given, grants.required, by simp [grants.forced], ?_⟩
    have balance := grants.balance
    have remaining := grants.remaining
    rw [timeOf_nil]
    omega

theorem Reaches.fits (exact : sim.Exact) (reached : sim.Reaches start p final) :
    ∃ given, Fits p final [] given := by
  induction reached with
  | calendarEnds => exact ⟨[], .rfl⟩
  | stops => exact ⟨[], .rfl⟩
  | passes goesOn passed _ ih =>
    obtain ⟨given, today⟩ := passed.fits exact goesOn
    obtain ⟨more, rest⟩ := ih
    exact ⟨given ++ more, today.trans rest⟩

theorem alike_of_recurring (recurring : ∀ a ∈ sim.allocations, a.frequency ≠ .once) :
    sim.Alike p q :=
  fun a member once => absurd once (recurring a member)

theorem GoesOn.again (recurring : ∀ a ∈ sim.allocations, a.frequency ≠ .once)
    (goesOn : sim.GoesOn day p) (more : p.remaining.nanos ≤ p'.remaining.nanos) :
    (sim.record entries).GoesOn day p' := by
  have remains := goesOn.remains
  exact GoesOn.record_iff.mpr ((alike_of_recurring recurring).goesOn goesOn (by omega))

/-- A day on which nothing was made leaves the second run at least as much as the first. -/
theorem Passes.remaining_le (exact : sim.Exact)
    (recurring : ∀ a ∈ sim.allocations, a.frequency ≠ .once) (goesOn : sim.GoesOn day p)
    (more : p.remaining.nanos ≤ p'.remaining.nanos) (passed : sim.Passes day p q)
    (passed' : (sim.record entries).Passes day p' q')
    (booked : ((sim.record entries).booked day).Perm (sim.booked day)) :
    q.remaining.nanos ≤ q'.remaining.nanos := by
  have applicable : (sim.record entries).applicable day p' = sim.applicable day p :=
    (alike_of_recurring recurring).applicable
  have none : (sim.record entries).booked day = [] ↔ sim.booked day = [] :=
    ⟨fun free => (free ▸ booked).symm.eq_nil, fun free => (free ▸ booked).eq_nil⟩
  cases passed.alongside applicable none passed' with
  | idle => exact more
  | keeps kept kept' =>
    have remaining := (Progress.keepBooked_appends kept).1
    have remaining' := (Progress.keepBooked_appends kept').1
    rw [timeOf_perm booked] at remaining'
    omega
  | grants granted granted' =>
    have remains := goesOn.remains
    obtain ⟨_, grants⟩ := Progress.grant_grants exact.divisible_of_applicable (by omega) granted
    obtain ⟨_, grants'⟩ := Progress.grant_grants exact.divisible_of_applicable (by omega) granted'
    have remaining := grants.remaining
    have remaining' := grants'.remaining
    omega

/-- A day of the first run, of whose appointments `now` was made, and the same
day of the second run: it keeps `now` and is not ahead of the first run. -/
theorem Passes.retry (exact : (sim.record entries).Exact)
    (recurring : ∀ a ∈ sim.allocations, a.frequency ≠ .once) (goesOn : sim.GoesOn day p)
    (more : p.remaining.nanos ≤ p'.remaining.nanos) (passed : sim.Passes day p q)
    (passed' : (sim.record entries).Passes day p' q')
    (required : q.required = p.required ++ given) (part : made.Sublist given)
    (slots : now.map ExistingAppointment.slot? = made.map some)
    (booked : ((sim.record entries).booked day).Perm (sim.booked day ++ now)) :
    q.remaining.nanos ≤ q'.remaining.nanos ∧ ∃ given', Fits p' q' now given' := by
  have exactBefore : sim.Exact :=
    ⟨exact.divisible, fun b member => exact.proper b (List.mem_append_left _ member)⟩
  by_cases nothing : now = []
  · subst nothing
    rw [List.append_nil] at booked
    exact ⟨passed.remaining_le exactBefore recurring goesOn more passed' booked,
      passed'.fits exact (goesOn.again recurring more)⟩
  · -- Something was made, so the first run granted and the second keeps.
    have someGiven : given ≠ [] := by
      rintro rfl
      cases part
      exact nothing (List.map_eq_nil_iff.mp slots)
    have applicable : (sim.record entries).applicable day p' = sim.applicable day p :=
      (alike_of_recurring recurring).applicable
    cases passed with
    | idle => exact absurd (List.self_eq_append_right.mp required) someGiven
    | keeps _ _ kept =>
      rw [(Progress.keepBooked_appends kept).2.1] at required
      exact absurd (List.self_eq_append_right.mp required) someGiven
    | grants usable free granted =>
      obtain ⟨others, grants⟩ := Progress.grant_grants exactBefore.divisible_of_applicable
        (Int.le_of_lt goesOn.remains) granted
      cases List.append_cancel_left (required.symm.trans grants.required)
      have fits : timeOf ExistingAppointment.duration now ≤
          timeOf RequiredAppointment.duration given := by
        rw [timeOf_of_slots slots]
        exact timeOf_sublist part fun r member => Int.le_of_lt (grants.positive r member)
      have balance := grants.balance
      have remaining := grants.remaining
      rw [free, List.nil_append] at booked
      cases passed' with
      | idle unusable => exact absurd (applicable.symm.trans unusable) usable
      | grants _ free' => exact absurd (free' ▸ booked).symm.eq_nil nothing
      | keeps _ _ kept' =>
        obtain ⟨remaining', required', forced'⟩ := Progress.keepBooked_appends kept'
        rw [timeOf_perm booked] at remaining'
        refine ⟨by omega, [], by rw [required', List.append_nil], ?_, ?_⟩
        · rw [forced']
          exact (booked.symm.append_left p'.forced).subset
        · rw [timeOf_nil]
          omega

/-- Whatever part of what a run requires was made, the next run keeps it, and
what it requires in addition still fits into what remains. -/
theorem Reaches.retry (exact : (sim.record entries).Exact)
    (recurring : ∀ a ∈ sim.allocations, a.frequency ≠ .once)
    (reached : sim.Reaches start p final) (again : (sim.record entries).Reaches start p' final')
    (more : p.remaining.nanos ≤ p'.remaining.nanos)
    (required : final.required = p.required ++ later) (part : made.Sublist later)
    (ahead : Ahead sim entries start coming made) : ∃ given', Fits p' final' coming given' := by
  induction reached generalizing p' made later coming with
  | calendarEnds =>
    rw [ahead.coming_eq_nil (List.self_eq_append_right.mp required ▸ part)]
    exact again.fits exact
  | stops =>
    rw [ahead.coming_eq_nil (List.self_eq_append_right.mp required ▸ part)]
    exact again.fits exact
  | @passes day p q final goesOn passed rest ih =>
    obtain ⟨given, -, own, -, today, -⟩ := passed.adds
    obtain ⟨after, rfl, others, dated⟩ := rest.split own required
    obtain ⟨first, second, rfl, partNow, partLater⟩ := List.sublist_append_iff.mp part
    obtain ⟨now, coming, rfl, slots, booked, ahead⟩ := ahead.split
      (fun r member => today r (partNow.subset member))
      (fun r member => dated r (partLater.subset member))
    cases again with
    | stops ended => exact absurd (goesOn.again recurring more) ended
    | passes _ passed' rest' =>
      obtain ⟨more, given', fits⟩ :=
        passed.retry exact recurring goesOn more passed' own partNow slots booked
      obtain ⟨later', fitsLater⟩ := ih rest' more others partLater ahead
      exact ⟨given' ++ later', fits.trans fitsLater⟩

end Simulation
namespace Request
variable {r : Request} {h : UInt32} {remaining : Duration} {s : Schedule} {outcome : Outcome}
variable {made : List RequiredAppointment} {entries : List ExistingAppointment}

/-- A plan retains a forced appointment as forced, and not as surplus. -/
theorem retained_as_forced {t : ExistingAppointment} (forced : t ∈ s.forcedRetentions) :
    (t, .forced) ∈ (r.plan s).retentions ∧ (t, .surplus) ∉ (r.plan s).retentions := by
  have taken : t.id ∈ (settle r.existingAppointments (forcedIds s) s.requiredAppointments).2 :=
    ((settle_settled _ _ _).taken t.id).mpr (.inl (List.mem_map_of_mem forced))
  rw [retentions_plan]
  constructor
  · simp [forced]
  · simp [surplus, taken]

/-- A plan creates some of what is required, so it takes no more time. -/
theorem createdTime_le (exact : (r.simulation h).Exact) (s : Schedule) :
    (r.plan s).createdTime ≤ timeOf RequiredAppointment.duration s.requiredAppointments := by
  have settled := settle_settled r.existingAppointments (forcedIds s) s.requiredAppointments
  have met : 0 ≤ timeOf ExistingAppointment.duration
      (meeting r.existingAppointments (forcedIds s) s.requiredAppointments) :=
    timeOf_nonneg fun a member => exact.proper a (settled.meets a member).1
  have time := settled.time
  rw [Plan.createdTime, creations_plan]
  omega

/-- A retry after a changed appointment. Whichever of the planned appointments
were made, all of them are kept, and with what the second plan creates they do
not go past the remaining time, which is the same in both runs. -/
theorem retry_never_overbooks (admitted : r.Admitted) (regular : r.Regular)
    (changed : r.trigger.isAppointmentChange)
    (recurring : ∀ a ∈ r.allocations, a.frequency ≠ .once) (plans : r.Plans h remaining s)
    (part : made.Sublist (r.plan s).creations)
    (recorded : Records r.existingAppointments made entries)
    (calculated : ((r.record entries).producePlan h).result = .ok outcome) :
    ∃ s', (r.record entries).Plans h remaining s' ∧
      (∀ t ∈ entries, (t, .forced) ∈ ((r.record entries).plan s').retentions ∧
        (t, .surplus) ∉ ((r.record entries).plan s').retentions) ∧
      timeOf ExistingAppointment.duration entries + ((r.record entries).plan s').createdTime ≤
        remaining.nanos := by
  have left := remaining_record plans part.subset recorded
  obtain ⟨s', plans', -⟩ := plans_of_left (left ▸ plans.left) plans.positive calculated
  obtain ⟨p, reached, rfl⟩ := schedule_eq_ok.mp plans.scheduled
  obtain ⟨p', reached', rfl⟩ := schedule_eq_ok.mp plans'.scheduled
  have partRequired : made.Sublist p.required := by
    rw [creations_plan] at part
    exact part.trans (settle_settled _ _ _).part
  have exact := admitted.exact regular h
  have exact' := exact_record exact plans.scheduled partRequired.subset recorded
  obtain ⟨coming, order, ahead⟩ := exists_ahead (h := h) changed recorded r.firstDay
  have recurring' : ∀ a ∈ (r.simulation h).allocations, a.frequency ≠ .once :=
    fun a member => recurring a (mem_simulation_allocations.mp member)
  obtain ⟨given, fits⟩ := reached.retry exact' recurring' reached' (Int.le_refl _)
    (List.nil_append _).symm partRequired ahead
  refine ⟨p'.conclude, plans', fun t member => retained_as_forced ?_, ?_⟩
  · exact fits.kept (order.symm.subset member)
  · have created := createdTime_le (r := r.record entries) (h := h) exact' p'.conclude
    have time := fits.time
    have positive := plans.positive
    rw [timeOf_perm order] at time
    simp only [Progress.conclude, fits.required, List.nil_append] at created time ⊢
    omega

/-- Four hours on Mondays, of which the first was made before the run failed. -/
theorem retry_keeps_the_first_monday :
    let r := Sample.request .appointmentChange .weekly Sample.fourHours []
    let entries := [Sample.booking 7 Sample.monday]
    ∃ s', (r.record entries).Plans 365 Sample.fourHours s' ∧
      (∀ t ∈ entries, (t, .forced) ∈ ((r.record entries).plan s').retentions ∧
        (t, .surplus) ∉ ((r.record entries).plan s').retentions) ∧
      timeOf ExistingAppointment.duration entries + ((r.record entries).plan s').createdTime ≤
        Sample.fourHours.nanos := by
  intro r entries
  have plans : r.Plans 365 Sample.fourHours
      ⟨[Sample.slot Sample.monday, Sample.slot Sample.nextMonday], [], .zero⟩ :=
    ⟨by cbv, by decide, by cbv, Sample.fourHours, by cbv⟩
  have recorded : Records r.existingAppointments [Sample.slot Sample.monday] entries :=
    ⟨.refl _, by decide, by decide, by decide⟩
  have calculated : ((r.record entries).producePlan 365).result =
      .ok (.existingAppointmentsInsufficient ⟨[.create (Sample.slot Sample.nextMonday),
        .retain (Sample.booking 7 Sample.monday) .forced], .zero⟩) := by
    cbv
  exact retry_never_overbooks (Sample.admitted (by decide)) (Sample.regular (by decide)) rfl
    (by decide) plans (by decide) recorded calculated

end Request
end UnpaidWork
