import UnpaidWork.Proofs.Conservation
import UnpaidWork.Proofs.Slots

/-!
Unless an appointment was changed, a simulation does nothing but fill the slots
of its request in their order until the time is used up. Each of its early ends
leaves no slot out: when nothing remains no further slot is needed, past the
horizon there are none, and when no allocation has a next date there are none
either. As long as something remains every slot passed was used as a whole, so
the allocations that are used up are exactly those that occurred before.
-/
namespace UnpaidWork

namespace TimeOfDay
variable {a b : TimeOfDay}

/-- A later time of day is some time away, inside leap seconds too. -/
theorem nanosTo_pos (order : a < b) : 0 < a.nanosTo b := by
  have := a.nano_lt
  have := b.nano_lt
  simp only [lt_iff, rank] at order
  simp only [nanosTo, inLeapSecond, decide_eq_true_eq]
  split
  · split <;> omega
  · split <;> omega

end TimeOfDay

theorem Allocation.IsValid.duration_pos {a : Allocation} (valid : a.IsValid) :
    0 < a.duration.nanos :=
  TimeOfDay.nanosTo_pos valid.2

/-! A walk always ends -/

theorem Progress.exists_grant {usable : List Allocation} (day : Date) (p : Progress)
    (proper : ∀ a ∈ usable, 0 ≤ a.duration.nanos) :
    ∃ q, (Progress.grant day usable p).result = .ok q := by
  induction usable generalizing p with
  | nil => exact ⟨p, rfl⟩
  | cons a rest ih =>
    have own : 0 ≤ a.duration.nanos := proper a List.mem_cons_self
    rw [grant]
    split
    · exact ⟨p, rfl⟩
    · rename_i something
      have shorter := Duration.nanos_min p.remaining a.duration
      have within := p.remaining.bounded
      rw [Duration.le_iff, Duration.nanos_zero] at something
      -- What is left lies between nothing and what remained.
      let left : Duration := ⟨p.remaining.nanos - (p.remaining.min a.duration).nanos, by omega⟩
      have subtracted : p.remaining.minus (p.remaining.min a.duration) = .ok left :=
        Duration.minus_eq_ok.mpr rfl
      obtain ⟨q, later⟩ := ih
        ⟨left, p.required ++ [appointmentOf day a (p.remaining.min a.duration)], p.forced⟩
        fun b member => proper b (List.mem_cons_of_mem a member)
      refine ⟨q, ?_⟩
      simp only [Traced.result_bind, Traced.result_tell, Traced.result_attempt]
      exact bind_eq_ok.mpr ⟨(), rfl, bind_eq_ok.mpr ⟨left, subtracted, later⟩⟩

namespace Simulation
variable {sim : Simulation} {start : Option Date} {day : Date} {p q final : Progress}
variable {earlier : List Date} {slots more : List Slot}

/-- If no day overflows, the walk ends: after each day fewer days are left. -/
theorem exists_reaches (passable : ∀ day p, sim.GoesOn day p → ∃ q, sim.Passes day p q)
    (start : Option Date) (p : Progress) : ∃ final, sim.Reaches start p final := by
  induction left : daysLeft start using Nat.strongRecOn generalizing start p with
  | ind left ih =>
    cases start with
    | none => exact ⟨p, .calendarEnds⟩
    | some day =>
      by_cases goesOn : sim.GoesOn day p
      · obtain ⟨q, passed⟩ := passable day p goesOn
        have fewer := sim.daysLeft_dayAfter_lt day
        obtain ⟨final, rest⟩ := ih _ (left ▸ fewer) (sim.dayAfter day) q rfl
        exact ⟨final, .passes goesOn passed rest⟩
      · exact ⟨p, .stops goesOn⟩

/-- A day passes if its bookings can be kept: granting never overflows. -/
theorem exists_passes (proper : ∀ a ∈ sim.allocations, 0 ≤ a.duration.nanos)
    (keeps : ∃ q, (Progress.keepBooked day (sim.booked day) p).result = .ok q) :
    ∃ q, sim.Passes day p q := by
  by_cases unusable : sim.applicable day p = []
  · exact ⟨p, .idle unusable⟩
  · by_cases free : sim.booked day = []
    · have lengths : ∀ a ∈ sim.applicable day p, 0 ≤ a.duration.nanos := fun a member =>
        proper a (List.mem_filter.mp member).1
      obtain ⟨q, granted⟩ := Progress.exists_grant day p lengths
      exact ⟨q, .grants unusable free granted⟩
    · obtain ⟨q, kept⟩ := keeps
      exact ⟨q, .keeps unusable free kept⟩

theorem exists_reaches_of_unchanged (unchanged : sim.request.trigger.isAppointmentChange = false)
    (proper : ∀ a ∈ sim.allocations, 0 ≤ a.duration.nanos) (start : Option Date) (p : Progress) :
    ∃ final, sim.Reaches start p final := by
  refine exists_reaches (fun day p _ => exists_passes proper ⟨p, ?_⟩) start p
  rw [booked_eq_nil unchanged]
  rfl

/-! Slots filled one after the other -/

/-- From one progress to another, slots are filled in turn while something
remains, each as a whole or with what remains. -/
inductive Fills : Progress → List Slot → Progress → Prop
  | used {p : Progress} (nothing : p.remaining.nanos ≤ 0) (slots : List Slot) : Fills p slots p
  | allPassed {p : Progress} : Fills p [] p
  | fills {p q : Progress} {left : Duration} {x : Slot} {slots : List Slot}
      (something : 0 < p.remaining.nanos)
      (subtracted : left.nanos = p.remaining.nanos - (p.remaining.min x.duration).nanos)
      (rest : Fills ⟨left, p.required ++ [x.appointment (p.remaining.min x.duration)], p.forced⟩
        slots q) : Fills p (x :: slots) q

theorem Fills.eq_of_nothing (filled : Fills p slots q) (nothing : p.remaining.nanos ≤ 0) :
    q = p := by
  cases filled with
  | used => rfl
  | allPassed => rfl
  | fills something => exact absurd something (Int.not_lt.mpr nothing)

theorem Fills.append (first : Fills p slots q) (second : Fills q more final) :
    Fills p (slots ++ more) final := by
  induction first with
  | used nothing slots =>
    cases second.eq_of_nothing nothing
    exact .used nothing _
  | allPassed => exact second
  | fills something subtracted _ ih => exact .fills something subtracted (ih second)

/-- Granting the allocations of a day fills their slots. -/
theorem fills_of_grant {usable : List Allocation}
    (granted : (Progress.grant day usable p).result = .ok q) :
    Fills p (usable.map (Slot.mk day)) q := by
  induction usable generalizing p with
  | nil =>
    cases granted
    exact .allPassed
  | cons a rest ih =>
    rcases Progress.grant_cons granted with ⟨nothing, rfl⟩ | ⟨something, left, subtracted, later⟩
    · exact .used nothing _
    · exact .fills something subtracted (ih later)

/-- While something remains, all slots passed are filled as a whole. -/
theorem Fills.whole (filled : Fills p slots q) (something : 0 < q.remaining.nanos) :
    q.required = p.required ++ slots.map fun x => x.appointment x.duration := by
  induction filled with
  | used nothing => exact absurd something (Int.not_lt.mpr nothing)
  | allPassed => simp
  | @fills p q left x slots before subtracted rest ih =>
    have shorter := Duration.nanos_min p.remaining x.duration
    have unused : 0 < left.nanos := by
      refine Int.not_le.mp fun nothing => ?_
      rw [rest.eq_of_nothing nothing] at something
      exact absurd something (Int.not_lt.mpr nothing)
    have length : p.remaining.min x.duration = x.duration := Duration.ext (by omega)
    rw [ih something, length, List.append_assoc, List.singleton_append, List.map_cons]

theorem Fills.forced_eq (filled : Fills p slots q) : q.forced = p.forced := by
  induction filled with
  | used => rfl
  | allPassed => rfl
  | fills _ _ _ ih => exact ih

/-! The walk fills the slots -/

/-- Of the allocations to be used once, those are used up that occurred on an earlier day. -/
def Spent (sim : Simulation) (earlier : List Date) (p : Progress) : Prop :=
  ∀ a ∈ sim.allocations, a.frequency = .once →
    (p.schedule.uses a.id ↔ ∃ e ∈ earlier, a.OccursOn e)

theorem Spent.applicable (spent : sim.Spent earlier p) (day : Date) :
    sim.applicable day p = sim.usableOn earlier day := by
  refine List.filter_congr fun a member => ?_
  rw [Bool.eq_iff_iff, Allocation.isPossibleOn_iff, decide_eq_true_eq]
  by_cases once : a.frequency = .once
  · simp [once, spent a member once, and_comm]
  · simp [once]

/-- Filling all slots of a day uses up the allocations that occur on it. -/
theorem Spent.next (distinct : (sim.allocations.map (·.id)).Nodup) (spent : sim.Spent earlier p)
    (required : q.required = p.required ++
      ((sim.usableOn earlier day).map (Slot.mk day)).map fun x => x.appointment x.duration)
    (forced : q.forced = p.forced) : sim.Spent (day :: earlier) q := by
  intro a member once
  have today : a ∈ sim.usableOn earlier day ↔ a.OccursOn day ∧ ¬ p.schedule.uses a.id := by
    simp [mem_usableOn, member, once, spent a member once]
  have uses : q.schedule.uses a.id ↔ p.schedule.uses a.id ∨ a ∈ sim.usableOn earlier day := by
    have byId : (∃ b ∈ sim.usableOn earlier day, b.id = a.id) ↔ a ∈ sim.usableOn earlier day := by
      constructor
      · rintro ⟨b, usable, same⟩
        rwa [← List.inj_on_of_nodup_map distinct (mem_usableOn.mp usable).1 member same]
      · exact fun usable => ⟨a, usable, rfl⟩
    rw [← byId]
    simp only [Progress.schedule, Schedule.uses, required, forced, List.any_append, List.map_map,
      List.any_map, Bool.or_eq_true, List.any_eq_true, Function.comp_def, Slot.appointment,
      decide_eq_true_eq]
    exact or_right_comm
  rw [uses, today, List.exists_mem_cons_iff, ← spent a member once]
  by_cases used : p.schedule.uses a.id <;> simp [used]

/-- Nothing is left to be filled from a day on which no allocation has a next date. -/
theorem slotsOver_eq_nil (spent : sim.Spent earlier p)
    (working : ∀ first, start = some first → first ∉ sim.request.nonWorkingDates)
    (impossible : ∀ first, start = some first →
      ∀ a ∈ sim.allocations, a.nextPossibleDate? first p.schedule = none) :
    sim.slotsOver earlier (sim.days start) = [] := by
  refine List.eq_nil_iff_forall_not_mem.mpr fun x member => ?_
  obtain ⟨day, listed, occurs, unused⟩ := (mem_slotsOver (days_ascending start working)).mp member
  obtain ⟨⟨first, begins, order⟩, -, -⟩ := (mem_days working).mp day
  have available : ¬ (x.allocation.frequency = .once ∧ p.schedule.uses x.allocation.id) := by
    rintro ⟨once, used⟩
    obtain ⟨e, before, earlierOccurs⟩ := (spent x.allocation listed once).mp used
    exact unused once e (.inl before) earlierOccurs
  obtain ⟨found, next⟩ := Allocation.exists_nextPossibleDate available order occurs
  rw [impossible first begins x.allocation listed] at next
  cases next

theorem Reaches.fills (unchanged : sim.request.trigger.isAppointmentChange = false)
    (distinct : (sim.allocations.map (·.id)).Nodup) (reached : sim.Reaches start p final)
    (working : ∀ first, start = some first → first ∉ sim.request.nonWorkingDates)
    (spent : 0 < p.remaining.nanos → sim.Spent earlier p) :
    Fills p (sim.slotsOver earlier (sim.days start)) final := by
  induction reached generalizing earlier with
  | calendarEnds =>
    rw [days]
    exact .allPassed
  | @stops day p ended =>
    by_cases something : 0 < p.remaining.nanos
    · by_cases inHorizon : sim.request.today.daysTo day ≤ sim.maxHorizonDays.toNat
      · rw [slotsOver_eq_nil (spent something) working]
        · exact .allPassed
        · rintro _ ⟨⟩ a member
          rw [← Option.not_isSome_iff_eq_none]
          exact fun possible => ended ⟨something, inHorizon, a, member, possible⟩
      · rw [days, if_neg inHorizon]
        exact .allPassed
    · exact .used (Int.not_lt.mp something) _
  | @passes day p q final goesOn passed rest ih =>
    have spent := spent goesOn.remains
    have today : Fills p ((sim.usableOn earlier day).map (Slot.mk day)) q := by
      cases passed with
      | idle unusable =>
        rw [← spent.applicable, unusable]
        exact .allPassed
      | keeps _ bookings => exact absurd (booked_eq_nil unchanged) bookings
      | grants _ _ granted =>
        rw [spent.applicable] at granted
        exact fills_of_grant granted
    rw [days, if_pos goesOn.inHorizon, slotsOver]
    refine today.append (ih (fun _ step => NonWorkingDates.nextWorkingDay?_working step) ?_)
    exact fun something => spent.next distinct (today.whole something) today.forced_eq

end Simulation

/-! Which slots are filled, and how far -/

/-- `used` is the shortest beginning of `slots` that lasts at least `time`, or
all of them if they do not last that long. -/
structure Slot.Shortest (time : Int) (slots used : List Slot) : Prop where
  beginning : used <+: slots
  enough : used = slots ∨ time ≤ timeOf Slot.duration used
  shorter : ∀ fewer, fewer <+: used → fewer ≠ used → timeOf Slot.duration fewer < time

/-- The appointments that use slots for `time`: each slot as a whole as long as
more than it is left, and at last the slot that takes what is left. -/
inductive Slot.Granted : Int → List Slot → List RequiredAppointment → Prop
  | nothing (time : Int) : Granted time [] []
  | whole {time : Int} {x : Slot} {used : List Slot} {given : List RequiredAppointment}
      (more : x.duration.nanos < time) (rest : Granted (time - x.duration.nanos) used given) :
      Granted time (x :: used) (x.appointment x.duration :: given)
  | last {time : Int} {x : Slot} {length : Duration} (left : length.nanos = time)
      (fits : time ≤ x.duration.nanos) : Granted time [x] [x.appointment length]

namespace Slot.Shortest
variable {time : Int} {x : Slot} {slots used : List Slot}

theorem nil (nothing : time ≤ 0) (slots : List Slot) : Shortest time slots [] := by
  refine ⟨List.nil_prefix, .inr (by simpa using nothing), fun fewer part different => ?_⟩
  exact absurd (List.prefix_nil.mp part) different

theorem eq_nil (shortest : Shortest time slots used) (nothing : time ≤ 0) : used = [] := by
  by_contra some
  have := shortest.shorter [] List.nil_prefix (Ne.symm some)
  rw [timeOf_nil] at this
  omega

/-- A first slot is needed while something is left, and the rest for what is left after it. -/
theorem cons (something : 0 < time) (rest : Shortest (time - x.duration.nanos) slots used) :
    Shortest time (x :: slots) (x :: used) := by
  refine ⟨List.cons_prefix_cons.mpr ⟨rfl, rest.beginning⟩, ?_, ?_⟩
  · rcases rest.enough with all | enough
    · exact .inl (by rw [all])
    · refine .inr ?_
      rw [timeOf_cons]
      omega
  · rintro (_ | ⟨y, fewer⟩) part different
    · simpa using something
    · obtain ⟨rfl, later⟩ := List.cons_prefix_cons.mp part
      have less := rest.shorter fewer later fun same => different (by rw [same])
      rw [timeOf_cons]
      omega

end Slot.Shortest

namespace Simulation.Fills
variable {p q : Progress} {slots : List Slot}

/-- Filling slots in turn takes the shortest beginning that lasts long enough. -/
theorem shortest (proper : ∀ x ∈ slots, 0 < x.duration.nanos) (filled : Fills p slots q)
    (remains : 0 ≤ p.remaining.nanos) : ∃ used given,
      Slot.Shortest p.remaining.nanos slots used ∧ Slot.Granted p.remaining.nanos used given ∧
      q.required = p.required ++ given ∧
      q.remaining.nanos = max 0 (p.remaining.nanos - timeOf Slot.duration slots) := by
  induction filled with
  | used nothing slots =>
    have all : 0 ≤ timeOf Slot.duration slots :=
      timeOf_nonneg fun x member => Int.le_of_lt (proper x member)
    exact ⟨[], [], .nil nothing slots, .nothing _, by simp, by omega⟩
  | allPassed =>
    refine ⟨[], [], ⟨List.nil_prefix, .inl rfl, fun fewer part different => ?_⟩, .nothing _,
      by simp, by rw [timeOf_nil]; omega⟩
    exact absurd (List.prefix_nil.mp part) different
  | @fills p q left x slots something subtracted rest ih =>
    have own : 0 < x.duration.nanos := proper x List.mem_cons_self
    have others : ∀ y ∈ slots, 0 < y.duration.nanos := fun y member =>
      proper y (List.mem_cons_of_mem x member)
    have all : 0 ≤ timeOf Slot.duration slots :=
      timeOf_nonneg fun y member => Int.le_of_lt (others y member)
    have shorter := Duration.nanos_min p.remaining x.duration
    obtain ⟨used, given, isShortest, granted, required, remaining⟩ :=
      ih others (by dsimp only; omega)
    dsimp only at isShortest granted required remaining
    rw [List.append_assoc, List.singleton_append] at required
    have after : q.remaining.nanos =
        max 0 (p.remaining.nanos - timeOf Slot.duration (x :: slots)) := by
      rw [timeOf_cons]
      omega
    by_cases more : x.duration.nanos < p.remaining.nanos
    · have length : p.remaining.min x.duration = x.duration := Duration.ext (by omega)
      have rest : left.nanos = p.remaining.nanos - x.duration.nanos := by omega
      rw [length] at required
      rw [rest] at isShortest granted
      exact ⟨x :: used, _, .cons something isShortest, .whole more granted, required, after⟩
    · -- The slot takes all that is left, and no further slot is needed.
      cases isShortest.eq_nil (by omega)
      cases granted
      exact ⟨[x], _, .cons something (.nil (by omega) slots), .last (by omega) (by omega),
        required, after⟩

end Simulation.Fills

namespace Request
variable {r : Request} {h : UInt32} {remaining : Duration}

/-- Unless an appointment was changed, the schedule of a request is made of the
first slots that it offers: of all of them in their order, the shortest
beginning that lasts as long as what remains, the last one cut to what is left. -/
theorem schedule_takes_the_first_slots (unchanged : r.trigger.isAppointmentChange = false)
    (usable : ∀ a ∈ r.allocations, a.IsValid) (distinct : (r.allocations.map (·.id)).Nodup)
    (positive : 0 < remaining.nanos) :
    ∃ slots used s, r.OffersInOrder h slots ∧ Slot.Shortest remaining.nanos slots used ∧
      (r.schedule h remaining).result = .ok s ∧
      s.forcedRetentions = [] ∧ Slot.Granted remaining.nanos used s.requiredAppointments ∧
      s.shortfall.nanos = max 0 (remaining.nanos - timeOf Slot.duration slots) := by
  have inOrder := offersInOrder_slots (h := h) distinct
  have proper : ∀ x ∈ r.slots h, 0 < x.duration.nanos := fun x member =>
    (usable x.allocation ((inOrder.complete x).mp member).listed).duration_pos
  have lengths : ∀ a ∈ (r.simulation h).allocations, 0 ≤ a.duration.nanos := fun a member =>
    Int.le_of_lt (usable a (mem_simulation_allocations.mp member)).duration_pos
  have ids : ((r.simulation h).allocations.map (·.id)).Nodup :=
    ((List.mergeSort_perm r.allocations _).map _).nodup_iff.mpr distinct
  obtain ⟨final, reached⟩ :
      ∃ final, (r.simulation h).Reaches r.firstDay ⟨remaining, [], []⟩ final :=
    Simulation.exists_reaches_of_unchanged unchanged lengths r.firstDay _
  have unused : (r.simulation h).Spent [] ⟨remaining, [], []⟩ := by
    intro a _ _
    simp [Progress.schedule, Schedule.uses]
  have filled := reached.fills unchanged ids
    (fun first search => (NonWorkingDates.workingDayOnOrAfter?_eq_some.mp search).isFit)
    fun _ => unused
  obtain ⟨used, given, shortest, granted, required, left⟩ :=
    filled.shortest proper (Int.le_of_lt positive)
  refine ⟨r.slots h, used, final.conclude, inOrder, shortest,
    schedule_eq_ok.mpr ⟨final, reached, rfl⟩, filled.forced_eq, ?_, ?_⟩
  · rw [List.nil_append] at required
    change Slot.Granted remaining.nanos used final.required
    rwa [required]
  · rw [final.nanos_shortfall, left]
    exact Int.max_eq_right (Int.le_max_left 0 _)

/-- Two allocations on Mondays, one of them to be used once, for four hours. -/
theorem schedule_takes_a_monday_once :
    let once := { Sample.mondays .once with id := 2 }
    let r := { Sample.request .manual .weekly Sample.fourHours [] with
      allocations := [once, Sample.mondays .fortnightly] }
    ∃ slots used s, r.OffersInOrder 365 slots ∧
      Slot.Shortest Sample.fourHours.nanos slots used ∧
      (r.schedule 365 Sample.fourHours).result = .ok s ∧
      s.forcedRetentions = [] ∧ Slot.Granted Sample.fourHours.nanos used s.requiredAppointments ∧
      s.shortfall.nanos = max 0 (Sample.fourHours.nanos - timeOf Slot.duration slots) := by
  intro once r
  have order : Sample.ten < Sample.noon := by decide
  have usable : ∀ a ∈ r.allocations, a.IsValid := by
    intro a member
    rcases List.mem_pair.mp member with rfl | rfl
    · exact ⟨(fun last ends => nomatch ends), order⟩
    · exact ⟨(fun last ends => nomatch ends), order⟩
  exact schedule_takes_the_first_slots rfl usable (by decide) (by decide)

end Request
end UnpaidWork
