import Mathlib
import UnpaidWork.Proofs.Conservation
import UnpaidWork.Proofs.Runs
import UnpaidWork.Proofs.Slots

/-!
What becomes of a day that has bookings. After a change of an appointment it is
all or nothing: such a day is passed over, or its bookings are kept, every one
of them, whatever remains; in neither case is anything required on it. A walk
therefore forces the bookings of some of the days that it comes by, day after
day, and a schedule shows on each date either all of them or none.
-/
namespace UnpaidWork
open Date

namespace Simulation
variable {sim : Simulation} {start : Option Date} {day : Date} {p q final : Progress}

/-- A day either forces nothing and requires something only if nothing is booked,
or it requires nothing and forces all its bookings, as an allocation occurs on it. -/
theorem Passes.whole (passed : sim.Passes day p q) :
    (q.forced = p.forced ∧ ∃ given, q.required = p.required ++ given ∧
      ∀ r ∈ given, r.date = day ∧ sim.booked day = []) ∨
    (q.required = p.required ∧ q.forced = p.forced ++ sim.booked day ∧
      ∃ a ∈ sim.allocations, a.OccursOn day) := by
  cases passed with
  | idle => exact .inl ⟨rfl, [], by simp, by simp⟩
  | keeps usable _ kept =>
    obtain ⟨-, required, forced⟩ := Progress.keepBooked_appends kept
    obtain ⟨a, member⟩ := List.exists_mem_of_ne_nil _ usable
    obtain ⟨listed, possible⟩ := List.mem_filter.mp member
    exact .inr ⟨required, forced, a, listed, (Allocation.isPossibleOn_iff.mp possible).2⟩
  | grants _ free granted =>
    obtain ⟨forced, given, required, origin⟩ := Progress.grant_appends granted
    refine .inl ⟨forced, given, required, fun r member => ⟨?_, free⟩⟩
    obtain ⟨a, -, length, rfl⟩ := origin r member
    rfl

/-- The bookings of a day may be forced: it is a working day within the horizon
on which some allocation occurs. -/
structure MayKeep (sim : Simulation) (day : Date) : Prop where
  working : day ∉ sim.request.nonWorkingDates
  inHorizon : sim.request.today.daysTo day ≤ sim.maxHorizonDays.toNat
  occurs : ∃ a ∈ sim.allocations, a.OccursOn day

/-- A walk forces the bookings of `kept` days, one day after the other, and
requires nothing on a day that has bookings. -/
structure KeepsDays (sim : Simulation) (start : Option Date) (p q : Progress)
    (kept : List Date) : Prop where
  forced : q.forced = p.forced ++ kept.flatMap sim.booked
  ascending : kept.Pairwise (· < ·)
  reached : ∀ day ∈ kept, ∃ first, start = some first ∧ first ≤ day
  mayKeep : ∀ day ∈ kept, sim.MayKeep day
  free : ∀ r ∈ q.required, r ∈ p.required ∨ sim.booked r.date = []

theorem Reaches.keepsDays (reached : sim.Reaches start p final)
    (working : ∀ first, start = some first → first ∉ sim.request.nonWorkingDates) :
    ∃ kept, sim.KeepsDays start p final kept := by
  induction reached with
  | calendarEnds => exact ⟨[], by simp, .nil, by simp, by simp, fun r member => .inl member⟩
  | stops => exact ⟨[], by simp, .nil, by simp, by simp, fun r member => .inl member⟩
  | @passes day p q final goesOn passed rest ih =>
    obtain ⟨kept, forced, ascending, after, mayKeep, free⟩ :=
      ih fun _ step => NonWorkingDates.nextWorkingDay?_working step
    have later : ∀ d ∈ kept, day < d := by
      intro d member
      obtain ⟨next, step, order⟩ := after d member
      exact lt_of_dayAfter_le step order
    have reach : ∀ d ∈ kept, ∃ first, some day = some first ∧ first ≤ d := fun d member =>
      ⟨day, rfl, Int.le_of_lt (later d member)⟩
    rcases passed.whole with ⟨same, given, required, today⟩ | ⟨required, today, occurs⟩
    · refine ⟨kept, by rw [forced, same], ascending, reach, mayKeep, fun r member => ?_⟩
      rcases free r member with before | unbooked
      · rw [required, List.mem_append] at before
        refine before.imp_right fun now => ?_
        obtain ⟨date, unbooked⟩ := today r now
        rwa [date]
      · exact .inr unbooked
    · refine ⟨day :: kept, ?_, List.pairwise_cons.mpr ⟨later, ascending⟩, ?_, ?_, ?_⟩
      · rw [forced, today, List.flatMap_cons, List.append_assoc]
      · exact List.forall_mem_cons.mpr ⟨⟨day, rfl, Date.le_refl day⟩, reach⟩
      · exact List.forall_mem_cons.mpr ⟨⟨working day rfl, goesOn.inHorizon, occurs⟩, mayKeep⟩
      · rwa [required] at free

/-- The bookings of ascending days are in the order of their dates. -/
theorem flatMap_booked_dated {kept : List Date} (ascending : kept.Pairwise (· < ·)) :
    (kept.flatMap sim.booked).Pairwise fun a b => a.date ≤ b.date := by
  have dated : ∀ day, ∀ b ∈ sim.booked day, b.date = day := fun day b member =>
    (mem_booked member).2.2
  refine List.pairwise_flatMap.mpr ⟨fun day _ => ?_, ascending.imp ?_⟩
  · refine List.pairwise_of_forall_mem_list fun a own b own' => ?_
    rw [dated day a own, dated day b own']
    exact Date.le_refl day
  · intro d e order a own b own'
    rw [dated d a own, dated e b own']
    exact Int.le_of_lt order

/-- On one date the bookings of some days are its own, or none if it is not among them. -/
theorem filter_flatMap_booked {kept : List Date} (ascending : kept.Pairwise (· < ·)) (day : Date) :
    (kept.flatMap sim.booked).filter (fun b => b.date = day) =
      if day ∈ kept then sim.booked day else [] := by
  induction kept with
  | nil => simp
  | cons first rest ih =>
    obtain ⟨below, later⟩ := List.pairwise_cons.mp ascending
    have dated : ∀ b ∈ sim.booked first, b.date = first := fun b member => (mem_booked member).2.2
    rw [List.flatMap_cons, List.filter_append, ih later]
    by_cases own : day = first
    · subst own
      have others : day ∉ rest := fun again => Int.lt_irrefl _ (below day again)
      rw [List.filter_eq_self.mpr (by simpa using dated), if_neg others,
        if_pos List.mem_cons_self, List.append_nil]
    · have none : (sim.booked first).filter (fun b => b.date = day) = [] := by
        refine List.filter_eq_nil_iff.mpr fun b member same => own ?_
        rw [← dated b member]
        exact (of_decide_eq_true same).symm
      rw [none, List.nil_append]
      simp [own]

end Simulation

/-- The order of the bookings of a day: by start time, then by id. -/
def ExistingAppointment.NotAfter (a b : ExistingAppointment) : Prop :=
  a.startTime < b.startTime ∨ a.startTime = b.startTime ∧ a.id ≤ b.id

theorem sortAppointments_ordered (appointments : List ExistingAppointment) :
    (sortAppointments appointments).Pairwise ExistingAppointment.NotAfter := by
  have sorted :=
    mergeSort_slotOrder ExistingAppointment.startTime ExistingAppointment.id appointments
  exact sorted.imp slotOrder_iff.mp

namespace Request
variable {r : Request} {h : UInt32} {remaining : Duration} {s : Schedule} {day : Date}

/-- The appointments of a date that have no outcome. -/
def bookingsOn (r : Request) (day : Date) : List ExistingAppointment :=
  r.existingAppointments.filter fun b => b.isUnresolved && b.date = day

/-- A schedule for the request keeps booked days whole. -/
structure KeepsBookedDays (r : Request) (h : UInt32) (s : Schedule) : Prop where
  /-- Nothing is forced unless an appointment was changed. -/
  unchanged : r.trigger.isAppointmentChange = false → s.forcedRetentions = []
  /-- After a change nothing is required on a date that has bookings. -/
  unrequired : r.trigger.isAppointmentChange → ∀ q ∈ s.requiredAppointments,
    r.bookingsOn q.date = []
  /-- Nor does the plan create anything there. -/
  uncreated : r.trigger.isAppointmentChange → ∀ q ∈ (r.plan s).creations,
    r.bookingsOn q.date = []
  /-- On each date no booking is forced, or all of them are, each once and in order. -/
  allOrNothing : ∀ day, s.forcedRetentions.filter (fun b => b.date = day) = [] ∨
    (s.forcedRetentions.filter fun b => b.date = day).Perm (r.bookingsOn day) ∧
      (s.forcedRetentions.filter fun b => b.date = day).Pairwise ExistingAppointment.NotAfter
  /-- What is forced exists, has no outcome, and lies on a working day from today
  to the horizon on which an allocation occurs. -/
  origin : ∀ b ∈ s.forcedRetentions, b ∈ r.existingAppointments ∧ b.isUnresolved ∧
    b.date ∉ r.nonWorkingDates ∧ r.today ≤ b.date ∧ r.today.daysTo b.date ≤ h.toNat ∧
      ∃ a ∈ r.allocations, a.OccursOn b.date
  /-- The dates of what is forced never go back. -/
  dated : s.forcedRetentions.Pairwise fun a b => a.date ≤ b.date

theorem booked_ordered (changed : r.trigger.isAppointmentChange) (day : Date) :
    ((r.simulation h).booked day).Pairwise ExistingAppointment.NotAfter := by
  have sorted : (r.simulation h).booked day = unresolvedOn r.existingAppointments day :=
    if_pos changed
  rw [sorted]
  exact sortAppointments_ordered _

theorem booked_perm_bookingsOn (changed : r.trigger.isAppointmentChange) (day : Date) :
    ((r.simulation h).booked day).Perm (r.bookingsOn day) :=
  Simulation.booked_perm changed

/-- What is forced is made of the bookings of days on which they may be kept. -/
theorem forced_origin {kept : List Date} {b : ExistingAppointment}
    (coming : ∀ day ∈ kept, r.today ≤ day)
    (mayKeep : ∀ day ∈ kept, (r.simulation h).MayKeep day)
    (member : b ∈ kept.flatMap (r.simulation h).booked) :
    b ∈ r.existingAppointments ∧ b.isUnresolved ∧ b.date ∉ r.nonWorkingDates ∧
      r.today ≤ b.date ∧ r.today.daysTo b.date ≤ h.toNat ∧
      ∃ a ∈ r.allocations, a.OccursOn b.date := by
  obtain ⟨day, inKept, booked⟩ := List.mem_flatMap.mp member
  obtain ⟨known, unresolved, rfl⟩ := Simulation.mem_booked booked
  obtain ⟨working, inHorizon, a, listed, occurs⟩ := mayKeep b.date inKept
  exact ⟨known, unresolved, working, coming b.date inKept, inHorizon, a,
    mem_simulation_allocations.mp listed, occurs⟩

/-- Whatever is left to do and however far a schedule looks, it keeps booked days whole. -/
theorem schedule_keeps_booked_days (scheduled : (r.schedule h remaining).result = .ok s) :
    r.KeepsBookedDays h s := by
  obtain ⟨p, reached, rfl⟩ := schedule_eq_ok.mp scheduled
  obtain ⟨kept, forced, ascending, after, mayKeep, free⟩ := reached.keepsDays fun first search =>
    (NonWorkingDates.workingDayOnOrAfter?_eq_some.mp search).isFit
  rw [List.nil_append] at forced
  change p.conclude.forcedRetentions = _ at forced
  have coming : ∀ day ∈ kept, r.today ≤ day := by
    intro day inKept
    obtain ⟨first, found, order⟩ := after day inKept
    exact Date.le_trans (NonWorkingDates.le_workingDayOnOrAfter found) order
  have unbooked (changed : r.trigger.isAppointmentChange) :
      ∀ q ∈ p.conclude.requiredAppointments, r.bookingsOn q.date = [] := by
    intro q member
    have none := (free q member).resolve_left List.not_mem_nil
    exact (none ▸ booked_perm_bookingsOn (h := h) changed q.date).symm.eq_nil
  refine ⟨fun unchanged => reached.forced_unchanged unchanged, unbooked, ?_, fun day => ?_, ?_, ?_⟩
  · intro changed q created
    rw [creations_plan] at created
    exact unbooked changed q ((settle_settled _ _ _).part.subset created)
  · by_cases changed : r.trigger.isAppointmentChange
    · rw [forced, Simulation.filter_flatMap_booked ascending]
      split
      · exact .inr ⟨booked_perm_bookingsOn changed day, booked_ordered changed day⟩
      · exact .inl rfl
    · have nothing := reached.forced_unchanged (Bool.eq_false_iff.mpr changed)
      exact .inl (by simp [Progress.conclude, nothing])
  · rw [forced]
    exact fun b member => forced_origin coming mayKeep member
  · rw [forced]
    exact Simulation.flatMap_booked_dated ascending

/-- Two hours are left, and the first of two booked Mondays keeps both its bookings
of two hours each; the other Monday is not reached. -/
theorem booked_monday_goes_past_the_requirement :
    let booked := [Sample.booking 9 Sample.monday, Sample.booking 8 Sample.nextMonday,
      Sample.booking 7 Sample.monday]
    let r := Sample.request .appointmentChange .weekly Sample.twoHours booked
    let kept := [Sample.booking 7 Sample.monday, Sample.booking 9 Sample.monday]
    let s : Schedule := ⟨[], kept, .zero⟩
    (r.schedule 365 Sample.twoHours).result = .ok s ∧ r.KeepsBookedDays 365 s := by
  intro booked r kept s
  have scheduled : (r.schedule 365 Sample.twoHours).result = .ok s := by cbv
  exact ⟨scheduled, schedule_keeps_booked_days scheduled⟩

end Request
end UnpaidWork
