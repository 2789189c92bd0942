import UnpaidWork.Proofs.BookedDays
import UnpaidWork.Proofs.Filling
import UnpaidWork.Proofs.Overshoot

/-!
A shortfall is left only when nothing usable is. A walk may end early, because
no allocation is possible any more or because the horizon is passed, and a day
may be passed over. But as long as something remains, every allocation that
occurs on a working day within reach has been served there: the day kept its
bookings, or it used the allocation as a whole, or the allocation can be used
once and is used up. An early end leaves no such day behind it.
-/
namespace UnpaidWork
open Date

namespace Simulation
variable {sim : Simulation} {start : Option Date} {day d : Date} {p q final : Progress}
variable {a : Allocation} {given : List RequiredAppointment} {kept : List ExistingAppointment}

/-- What can have become of an allocation on a day on which it occurs. -/
inductive Served (sim : Simulation) (a : Allocation) (day : Date) (p : Progress) : Prop
  | keeps (bookings : sim.booked day ≠ []) (forced : (sim.booked day).Sublist p.forced)
  | whole (required : (Slot.mk day a).appointment a.duration ∈ p.required)
  | usedUp (once : a.frequency = .once) (used : p.schedule.uses a.id)

/-- Nothing that is added later takes this back. -/
theorem Served.adds (served : sim.Served a day p) (required : q.required = p.required ++ given)
    (forced : q.forced = p.forced ++ kept) : sim.Served a day q := by
  cases served with
  | keeps bookings within =>
    apply Served.keeps bookings
    rw [forced]
    exact within.trans (List.sublist_append_left _ _)
  | whole member =>
    apply Served.whole
    rw [required]
    exact List.mem_append_left _ member
  | usedUp once used =>
    apply Served.usedUp once
    rw [Progress.uses_of_adds required forced, used, Bool.true_or]

/-- A day serves all allocations that occur on it, if something remains after it. -/
theorem Passes.served (passed : sim.Passes day p q) (remains : 0 < q.remaining.nanos)
    (listed : a ∈ sim.allocations) (occurs : a.OccursOn day) : sim.Served a day q := by
  by_cases usedUp : a.frequency = .once ∧ p.schedule.uses a.id
  · obtain ⟨given, kept, required, forced, -, -⟩ := passed.adds
    exact (Served.usedUp usedUp.1 usedUp.2).adds required forced
  · have usable : a ∈ sim.applicable day p :=
      List.mem_filter.mpr ⟨listed, Allocation.isPossibleOn_iff.mpr ⟨usedUp, occurs⟩⟩
    cases passed with
    | idle unusable =>
      rw [unusable] at usable
      cases usable
    | keeps _ bookings kept =>
      obtain ⟨-, -, forced⟩ := Progress.keepBooked_appends kept
      apply Served.keeps bookings
      rw [forced]
      exact List.sublist_append_right _ _
    | grants _ _ granted =>
      have required := (fills_of_grant granted).whole remains
      apply Served.whole
      rw [required]
      exact List.mem_append_right _
        (List.mem_map_of_mem (List.mem_map_of_mem usable))

/-- A walk does not end with something remaining before an occurrence within the
horizon, unless the allocation is used up. -/
theorem usedUp_of_not_goesOn (ended : ¬ sim.GoesOn day p) (remains : 0 < p.remaining.nanos)
    (order : day ≤ d) (inHorizon : sim.request.today.daysTo d ≤ sim.maxHorizonDays.toNat)
    (listed : a ∈ sim.allocations) (occurs : a.OccursOn d) :
    a.frequency = .once ∧ p.schedule.uses a.id := by
  by_contra unused
  obtain ⟨found, next⟩ := Allocation.exists_nextPossibleDate unused order occurs
  refine ended ⟨remains, ?_, a, listed, by rw [next]; rfl⟩
  simp only [daysTo, le_iff] at inHorizon order ⊢
  omega

/-- A walk after which something remains serves every allocation on every
working day within the horizon on which it occurs. -/
theorem Reaches.served (reached : sim.Reaches start p final)
    (remains : 0 < final.remaining.nanos) (ahead : ∃ first, start = some first ∧ first ≤ d)
    (working : d ∉ sim.request.nonWorkingDates)
    (inHorizon : sim.request.today.daysTo d ≤ sim.maxHorizonDays.toNat)
    (listed : a ∈ sim.allocations) (occurs : a.OccursOn d) : sim.Served a d final := by
  induction reached with
  | calendarEnds =>
    obtain ⟨first, begins, -⟩ := ahead
    cases begins
  | stops ended =>
    obtain ⟨_, ⟨⟩, order⟩ := ahead
    obtain ⟨once, used⟩ := usedUp_of_not_goesOn ended remains order inHorizon listed occurs
    exact .usedUp once used
  | @passes day p q final goesOn passed rest ih =>
    obtain ⟨_, ⟨⟩, order⟩ := ahead
    by_cases later : day < d
    · exact ih remains ((dayAfter_le_iff working).mpr later)
    · cases Date.le_antisymm order (Date.not_lt.mp later)
      obtain ⟨given, kept, adds⟩ := rest.adds
      have remained : 0 < q.remaining.nanos := by
        refine Int.not_le.mp fun nothing => ?_
        rw [rest.eq_of_nothing nothing] at remains
        exact absurd remains (Int.not_lt.mpr nothing)
      exact (passed.served remained listed occurs).adds adds.required adds.forced

end Simulation

namespace Request
variable {r : Request} {h : UInt32} {remaining : Duration} {s : Schedule} {day : Date}

/-- A working day from today to the horizon. -/
structure InReach (r : Request) (h : UInt32) (day : Date) : Prop where
  working : day ∉ r.nonWorkingDates
  coming : r.today ≤ day
  inHorizon : r.today.daysTo day ≤ h.toNat

/-- An appointment was changed, and the schedule forces all bookings of the day,
of which there are some. -/
structure KeepsDay (r : Request) (s : Schedule) (day : Date) : Prop where
  changed : r.trigger.isAppointmentChange
  booked : r.bookingsOn day ≠ []
  forced : (r.bookingsOn day).Subperm s.forcedRetentions

/-- The schedule leaves nothing usable within reach. -/
structure Exhausts (r : Request) (h : UInt32) (s : Schedule) : Prop where
  /-- Where a recurring allocation occurs, the day keeps its bookings or uses
  the whole of the allocation. -/
  recurring : ∀ a ∈ r.allocations, a.frequency ≠ .once → ∀ day, r.InReach h day →
    a.OccursOn day →
      r.KeepsDay s day ∨ (Slot.mk day a).appointment a.duration ∈ s.requiredAppointments
  /-- An allocation to be used once is used, or every day on which it occurs
  keeps its bookings. -/
  once : ∀ a ∈ r.allocations, a.frequency = .once →
    s.uses a.id ∨ ∀ day, r.InReach h day → a.OccursOn day → r.KeepsDay s day

theorem keepsDay_of_booked {p : Progress} (bookings : (r.simulation h).booked day ≠ [])
    (forced : ((r.simulation h).booked day).Sublist p.forced) : r.KeepsDay p.conclude day := by
  have changed : r.trigger.isAppointmentChange := by
    by_contra unchanged
    exact bookings (Simulation.booked_eq_nil (Bool.eq_false_iff.mpr unchanged))
  have all := booked_perm_bookingsOn (h := h) changed day
  refine ⟨changed, fun none => bookings ?_, all.symm.subperm.trans forced.subperm⟩
  rw [none] at all
  exact all.eq_nil

/-- Whatever the trigger and the horizon, a schedule that reports a shortfall
leaves nothing usable. -/
theorem shortfall_only_when_exhausted (scheduled : (r.schedule h remaining).result = .ok s)
    (short : 0 < s.shortfall.nanos) : r.Exhausts h s := by
  obtain ⟨p, reached, rfl⟩ := schedule_eq_ok.mp scheduled
  rw [p.nanos_shortfall] at short
  have served : ∀ a ∈ r.allocations, ∀ day, r.InReach h day → a.OccursOn day →
      (r.simulation h).Served a day p := by
    intro a listed day reach occurs
    obtain ⟨first, search, isFirst⟩ :=
      NonWorkingDates.exists_workingDayOnOrAfter reach.coming reach.working
    have order := isFirst.least day reach.coming reach.working
    exact reached.served (by omega) ⟨first, search, order⟩ reach.working reach.inHorizon
      (mem_simulation_allocations.mpr listed) occurs
  constructor
  · intro a listed recurring day reach occurs
    cases served a listed day reach occurs with
    | keeps bookings forced => exact .inl (keepsDay_of_booked bookings forced)
    | whole required => exact .inr required
    | usedUp once => exact absurd once recurring
  · intro a listed _
    by_cases used : p.conclude.uses a.id
    · exact .inl used
    · refine .inr fun day reach occurs => ?_
      cases served a listed day reach occurs with
      | keeps bookings forced => exact keepsDay_of_booked bookings forced
      | whole required =>
        have uses : p.required.any (fun q => q.allocationId = a.id) :=
          List.any_eq_true.mpr ⟨_, required, decide_eq_true rfl⟩
        exact absurd (Bool.or_eq_true_iff.mpr (.inl uses)) used
      | usedUp _ uses => exact absurd uses used

/-- Two Mondays within eight days give six of seven hours: on the first there are two
slots, one of them to be used once, and the second is booked. -/
theorem two_mondays_leave_an_hour :
    let sevenHours : Duration := ⟨25200000000000, by decide⟩
    let booked := Sample.booking 7 Sample.nextMonday
    let r := { Sample.request .appointmentChange .weekly sevenHours [booked] with
      allocations := [{ Sample.mondays .once with id := 2 }, Sample.mondays .weekly] }
    let s : Schedule := ⟨[Sample.slot Sample.monday, { Sample.slot Sample.monday with
      allocationId := 2 }], [booked], ⟨3600000000000, by decide⟩⟩
    (r.schedule 8 sevenHours).result = .ok s ∧ r.Exhausts 8 s := by
  intro sevenHours booked r s
  have scheduled : (r.schedule 8 sevenHours).result = .ok s := by cbv
  exact ⟨scheduled, shortfall_only_when_exhausted scheduled (by decide)⟩

end Request
end UnpaidWork
