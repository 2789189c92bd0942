import UnpaidWork.Proofs.Recording

/-!
A second run after an appointment was changed. What the first run created comes
back as bookings that have to be kept: on the days on which the first run
granted time, the second keeps exactly that time, and on all other days both do
the same. So they stay in step, also in which allocations they use, and end
with the same shortfall, but in the second run nothing is left to create.
-/
namespace UnpaidWork

section Slots
variable {now coming : List ExistingAppointment} {given made : List RequiredAppointment}

theorem map_of_slots (same : now.map ExistingAppointment.slot? = given.map some) :
    now.map ExistingAppointment.duration = given.map RequiredAppointment.duration ∧
      now.map (·.allocationId) = given.map fun q => some q.allocationId := by
  induction given generalizing now with
  | nil =>
    cases List.map_eq_nil_iff.mp same
    exact ⟨rfl, rfl⟩
  | cons q rest ih =>
    obtain ⟨b, others, rfl, first, later⟩ := List.map_eq_cons_iff.mp same
    obtain ⟨-, duration, allocation⟩ := RequiredAppointment.of_slot first
    obtain ⟨durations, allocations⟩ := ih later
    simp [duration, allocation, durations, allocations]

theorem timeOf_of_slots (same : now.map ExistingAppointment.slot? = given.map some) :
    timeOf ExistingAppointment.duration now = timeOf RequiredAppointment.duration given := by
  have sums := congrArg (timeOf id) (map_of_slots same).1
  simpa only [timeOf_map, id_eq] using sums

end Slots

/-! What the second run finds -/

/-- From the start day on, the second run finds the bookings of the first one
and besides them `coming`, which fill the slots `made`. -/
structure Ahead (sim : Simulation) (entries : List ExistingAppointment) (start : Option Date)
    (coming : List ExistingAppointment) (made : List RequiredAppointment) : Prop where
  slots : coming.map ExistingAppointment.slot? = made.map some
  booked : ∀ first, start = some first → ∀ day, first ≤ day →
    ((sim.record entries).booked day).Perm (sim.booked day ++ coming.filter fun b => b.date = day)

section Ahead
variable {sim : Simulation} {entries coming : List ExistingAppointment} {day : Date}
variable {start : Option Date} {given made later : List RequiredAppointment}
variable {p q final : Progress}

theorem Ahead.coming_eq_nil (ahead : Ahead sim entries start coming made)
    (nothing : made.Sublist []) : coming = [] := by
  cases nothing
  exact List.map_eq_nil_iff.mp ahead.slots

/-- The entries of one day come before those of the days after it. -/
theorem Ahead.split (ahead : Ahead sim entries (some day) coming (given ++ later))
    (today : ∀ r ∈ given, r.date = day) (after : ∀ r ∈ later, day < r.date) :
    ∃ now rest, coming = now ++ rest ∧ now.map ExistingAppointment.slot? = given.map some ∧
      ((sim.record entries).booked day).Perm (sim.booked day ++ now) ∧
      Ahead sim entries (sim.dayAfter day) rest later := by
  have slots := ahead.slots
  rw [List.map_append] at slots
  obtain ⟨now, rest, rfl, nowSlots, restSlots⟩ := List.map_eq_append_iff.mp slots
  refine ⟨now, rest, rfl, nowSlots, ?_, restSlots, ?_⟩
  · have booked := ahead.booked day rfl day (Int.le_refl _)
    have all : now.filter (fun b => b.date = day) = now := by
      refine List.filter_eq_self.mpr fun b member => ?_
      obtain ⟨q, inGiven, slot⟩ := mem_of_slots (.of_eq nowSlots) b member
      simp [(RequiredAppointment.of_slot slot).1, today q inGiven]
    have notYet : rest.filter (fun b => b.date = day) = [] := by
      refine List.filter_eq_nil_iff.mpr fun b member => ?_
      obtain ⟨q, inLater, slot⟩ := mem_of_slots (.of_eq restSlots) b member
      have := after q inLater
      simp only [(RequiredAppointment.of_slot slot).1, decide_eq_true_eq]
      rintro rfl
      exact Int.lt_irrefl _ this
    rwa [List.filter_append, all, notYet, List.append_nil] at booked
  · intro next step other order
    have order : day < other := Simulation.lt_of_dayAfter_le step order
    have booked := ahead.booked day rfl other (Int.le_of_lt order)
    have noMore : now.filter (fun b => b.date = other) = [] := by
      refine List.filter_eq_nil_iff.mpr fun b member => ?_
      obtain ⟨q, inGiven, slot⟩ := mem_of_slots (.of_eq nowSlots) b member
      simp only [(RequiredAppointment.of_slot slot).1, today q inGiven, decide_eq_true_eq]
      rintro rfl
      exact Int.lt_irrefl _ order
    rwa [List.filter_append, noMore, List.nil_append] at booked

/-- What a walk adds after a day lies after it. -/
theorem Simulation.Reaches.split (rest : sim.Reaches (sim.dayAfter day) q final)
    (today : q.required = p.required ++ given) (all : final.required = p.required ++ later) :
    ∃ after, later = given ++ after ∧ final.required = q.required ++ after ∧
      ∀ r ∈ after, day < r.date := by
  obtain ⟨after, kept, adds⟩ := rest.adds
  refine ⟨after, ?_, adds.required, fun r member => ?_⟩
  · have both := all.symm.trans adds.required
    rw [today, List.append_assoc] at both
    exact List.append_cancel_left both
  · obtain ⟨next, step, order⟩ := adds.dated r member
    exact lt_of_dayAfter_le step order

end Ahead

/-! Which allocations can be used -/

theorem Allocation.nextPossibleDate?_congr {a : Allocation} {s s' : Schedule} (day : Date)
    (agree : a.frequency = .once → s.uses a.id = s'.uses a.id) :
    a.nextPossibleDate? day s = a.nextPossibleDate? day s' := by
  unfold nextPossibleDate?
  by_cases once : a.frequency = .once
  · rw [agree once]
  · simp [once]

namespace Progress
variable {p q : Progress} {given : List RequiredAppointment} {kept : List ExistingAppointment}

theorem uses_of_adds (required : q.required = p.required ++ given)
    (forced : q.forced = p.forced ++ kept) (id : Int64) :
    q.schedule.uses id = (p.schedule.uses id || (given.any (fun r => r.allocationId = id) ||
      kept.any fun b => b.allocationId = some id)) := by
  simp only [schedule, Schedule.uses, required, forced, List.any_append, Bool.or_assoc]
  congr 1
  simp only [← Bool.or_assoc, Bool.or_comm]

end Progress

namespace Simulation
variable {sim : Simulation} {entries : List ExistingAppointment} {day : Date} {p q : Progress}

/-- Two runs have come to use the same of the allocations that can be used once. -/
def Alike (sim : Simulation) (p q : Progress) : Prop :=
  ∀ a ∈ sim.allocations, a.frequency = .once → p.schedule.uses a.id = q.schedule.uses a.id

theorem Alike.applicable (alike : sim.Alike p q) :
    (sim.record entries).applicable day q = sim.applicable day p := by
  refine List.filter_congr fun a member => ?_
  have same := Allocation.nextPossibleDate?_congr day (alike a member)
  simp only [Allocation.isPossibleOn, same]

theorem Alike.symm (alike : sim.Alike p q) : sim.Alike q p :=
  fun a member once => (alike a member once).symm

theorem Alike.goesOn (alike : sim.Alike p q) (goesOn : sim.GoesOn day p)
    (remains : 0 < q.remaining.nanos) : sim.GoesOn day q := by
  obtain ⟨a, member, possible⟩ := goesOn.possible
  rw [Allocation.nextPossibleDate?_congr day (alike a member)] at possible
  exact ⟨remains, goesOn.inHorizon, a, member, possible⟩

/-! The two runs in step -/

/-- The second run is in step with the first: it has as much time left and has
used the same allocations, and it required no appointment so far. -/
structure Echoes (p p' : Progress) : Prop where
  remaining : p'.remaining = p.remaining
  required : p'.required = []
  uses : ∀ id, p'.schedule.uses id = p.schedule.uses id

variable {p' final : Progress} {given later : List RequiredAppointment} {start : Option Date}
variable {now kept coming : List ExistingAppointment}

theorem Echoes.alike (echoes : Echoes p p') : sim.Alike p p' :=
  fun a _ _ => (echoes.uses a.id).symm

theorem Exact.record (exact : sim.Exact) (proper : ∀ a ∈ entries, 0 ≤ a.duration.nanos) :
    (sim.record entries).Exact := by
  refine ⟨exact.divisible, fun b member => ?_⟩
  rcases List.mem_append.mp member with existing | entry
  · exact exact.proper b existing
  · exact proper b entry

/-- The second run keeps bookings that last as long as what the first run
granted or kept on that day, and that come from the same allocations. -/
theorem Echoes.keeps (exact : (sim.record entries).Exact) (echoes : Echoes p p')
    (usable : sim.applicable day p ≠ []) (someBooked : (sim.record entries).booked day ≠ [])
    (required : q.required = p.required ++ given) (forced : q.forced = p.forced ++ kept)
    (time : q.remaining.nanos = p.remaining.nanos -
      timeOf ExistingAppointment.duration ((sim.record entries).booked day))
    (sources : ∀ id, ((sim.record entries).booked day).any (fun b => b.allocationId = some id) =
      (given.any (fun r => r.allocationId = id) || kept.any fun b => b.allocationId = some id)) :
    ∃ q', (sim.record entries).Passes day p' q' ∧ Echoes q q' := by
  let bookings := (sim.record entries).booked day
  let q' : Progress := ⟨q.remaining, p'.required, p'.forced ++ bookings⟩
  have kept' : (Progress.keepBooked day bookings p').result = .ok q' :=
    Progress.keepBooked_of_remaining exact.proper_of_booked (by rw [time, echoes.remaining])
  refine ⟨q', .keeps ?_ someBooked kept', rfl, echoes.required, fun id => ?_⟩
  · rwa [echoes.alike.applicable]
  · have nothing : q'.required = p'.required ++ [] := (List.append_nil _).symm
    have grown := Progress.uses_of_adds nothing rfl id
    rw [grown, Progress.uses_of_adds required forced, echoes.uses, sources, List.any_nil,
      Bool.false_or]

/-- What one day does to the two runs, where the second has in addition the
entries for what the first one grants on that day. -/
theorem Passes.echo (exact : (sim.record entries).Exact) (goesOn : sim.GoesOn day p)
    (passed : sim.Passes day p q) (echoes : Echoes p p')
    (required : q.required = p.required ++ given)
    (slots : now.map ExistingAppointment.slot? = given.map some)
    (booked : ((sim.record entries).booked day).Perm (sim.booked day ++ now)) :
    ∃ q', (sim.record entries).Passes day p' q' ∧ Echoes q q' := by
  have nothing_now (nothing : given = []) : now = [] := by
    subst nothing
    exact List.map_eq_nil_iff.mp slots
  cases passed with
  | idle unusable => exact ⟨p', .idle (echoes.alike.applicable.trans unusable), echoes⟩
  | keeps usable bookings kept =>
    obtain ⟨remaining, unchanged, forced⟩ := Progress.keepBooked_appends kept
    have nothing : given = [] := by simpa [unchanged] using required
    rw [nothing_now nothing, List.append_nil] at booked
    refine echoes.keeps exact usable ?_ required forced ?_ fun id => ?_
    · intro unbooked
      rw [unbooked] at booked
      exact bookings booked.symm.eq_nil
    · rw [timeOf_perm booked, remaining]
    · rw [nothing, booked.any_eq]
      rfl
  | grants usable free granted =>
    have divisible : ∀ a ∈ sim.applicable day p, a.Divisible :=
      fun a member => exact.divisible a (List.mem_filter.mp member).1
    obtain ⟨others, grants⟩ := Progress.grant_grants divisible (Int.le_of_lt goesOn.remains) granted
    cases List.append_cancel_left (required.symm.trans grants.required)
    rw [free, List.nil_append] at booked
    have forced : q.forced = p.forced ++ [] := by rw [grants.forced, List.append_nil]
    refine echoes.keeps exact usable ?_ required forced ?_ fun id => ?_
    · intro unbooked
      rw [unbooked] at booked
      refine grants.nonempty divisible usable goesOn.remains ?_
      rw [booked.symm.eq_nil] at slots
      exact List.map_eq_nil_iff.mp slots.symm
    · have balance := grants.balance
      rw [timeOf_perm booked, timeOf_of_slots slots]
      omega
    · have allocations := (map_of_slots slots).2
      have sources := congrArg (fun ids => ids.any fun source => source = some id) allocations
      rw [booked.any_eq]
      simpa [Function.comp_def] using sources

/-- Two runs that are in step once stay so to the end. -/
theorem Reaches.echo (exact : (sim.record entries).Exact) (reached : sim.Reaches start p final)
    (echoes : Echoes p p') (required : final.required = p.required ++ later)
    (ahead : Ahead sim entries start coming later) :
    ∃ final', (sim.record entries).Reaches start p' final' ∧ Echoes final final' := by
  induction reached generalizing p' later coming with
  | calendarEnds => exact ⟨p', .calendarEnds, echoes⟩
  | @stops day p ended =>
    refine ⟨p', .stops fun goesOn => ended ?_, echoes⟩
    have goesOn := GoesOn.record_iff.mp goesOn
    exact echoes.alike.symm.goesOn goesOn (echoes.remaining ▸ goesOn.remains)
  | @passes day p q final goesOn passed rest ih =>
    obtain ⟨given, -, own, -, today, -⟩ := passed.adds
    obtain ⟨after, rfl, others, dated⟩ := rest.split own required
    obtain ⟨now, coming, rfl, slots, booked, ahead⟩ := ahead.split today dated
    obtain ⟨q', passed', echoes'⟩ := passed.echo exact goesOn echoes own slots booked
    obtain ⟨final', rest', ends⟩ := ih echoes' others ahead
    have goesOn' := echoes.alike.goesOn goesOn (echoes.remaining ▸ goesOn.remains)
    exact ⟨final', .passes (GoesOn.record_iff.mpr goesOn') passed' rest', ends⟩

end Simulation

namespace Request
variable {r : Request} {h : UInt32} {remaining : Duration} {s : Schedule} {plan : Plan}
variable {made : List RequiredAppointment} {entries : List ExistingAppointment}

/-- The bookings that the second run finds are the old ones and the entries, which
can be put in the order of what was made. -/
theorem exists_ahead (changed : r.trigger.isAppointmentChange)
    (recorded : Records r.existingAppointments made entries) (start : Option Date) :
    ∃ coming, coming.Perm entries ∧ Ahead (r.simulation h) entries start coming made := by
  obtain ⟨coming, slots, order⟩ :=
    (congrFun₂ (List.eq_map_comp_perm ExistingAppointment.slot?) _ _).mpr recorded.slots.symm
  refine ⟨coming, order, slots.symm, fun _ _ day _ => ?_⟩
  have old : ((r.simulation h).booked day).Perm
      (r.existingAppointments.filter fun b => b.isUnresolved && b.date = day) :=
    Simulation.booked_perm changed
  have all : (((r.simulation h).record entries).booked day).Perm
      ((r.existingAppointments ++ entries).filter fun b => b.isUnresolved && b.date = day) :=
    Simulation.booked_perm changed
  have new : entries.filter (fun b => b.isUnresolved && b.date = day) =
      entries.filter fun b => b.date = day :=
    List.filter_congr fun b member => by simp [recorded.unresolved b member]
  rw [List.filter_append, new] at all
  exact all.trans (old.symm.append (order.symm.filter _))

theorem exact_record (exact : (r.simulation h).Exact)
    (scheduled : (r.schedule h remaining).result = .ok s)
    (part : ∀ q ∈ made, q ∈ s.requiredAppointments)
    (recorded : Records r.existingAppointments made entries) :
    ((r.simulation h).record entries).Exact := by
  refine exact.record fun a member => ?_
  obtain ⟨q, inMade, slot⟩ := mem_of_slots recorded.slots a member
  have required := List.mem_map_of_mem (f := RequiredAppointment.duration) (part q inMade)
  rw [(RequiredAppointment.of_slot slot).2.1]
  exact lengths_nonneg exact scheduled q.duration (List.mem_append_left _ required)

/-- If a plan retains appointments without an outcome only, it creates all that
its schedule requires, since there are none where the schedule grants time. -/
theorem creations_eq_required (changed : r.trigger.isAppointmentChange)
    (exact : (r.simulation h).Exact) (scheduled : (r.schedule h remaining).result = .ok s)
    (unresolved : ∀ entry ∈ (r.plan s).retentions, entry.1.isUnresolved) :
    (r.plan s).creations = s.requiredAppointments := by
  rw [creations_plan]
  refine missing_of_unmet (List.eq_nil_iff_forall_not_mem.mpr fun a met => ?_)
  obtain ⟨present, q, required, slot⟩ := (settle_settled _ _ _).meets a met
  have standing : a.isUnresolved := unresolved (a, .required) (by
    rw [retentions_plan]
    simp [met])
  obtain ⟨p, reached, rfl⟩ := schedule_eq_ok.mp scheduled
  rcases reached.granted exact q required with before | ⟨-, free⟩
  · cases before
  · have booked : a ∈ (r.simulation h).booked q.date := by
      rw [(Simulation.booked_perm changed).mem_iff, List.mem_filter]
      simp [simulation, present, standing, (RequiredAppointment.of_slot slot).1]
    rw [free] at booked
    cases booked

/-- What a plan creates is proper, so the simulation stays exact once it was made. -/
theorem exact_record_creations (exact : (r.simulation h).Exact)
    (scheduled : (r.schedule h remaining).result = .ok s)
    (recorded : Records r.existingAppointments (r.plan s).creations entries) :
    ((r.simulation h).record entries).Exact := by
  refine exact_record exact scheduled (fun q created => ?_) recorded
  rw [creations_plan] at created
  exact (settle_settled _ _ _).part.subset created

/-- After a change of an appointment, the second run is in step with the first. -/
theorem reaches_again {p : Progress} (changed : r.trigger.isAppointmentChange)
    (exact : (r.simulation h).Exact)
    (reached : (r.simulation h).Reaches r.firstDay ⟨remaining, [], []⟩ p)
    (unresolved : ∀ entry ∈ (r.plan p.conclude).retentions, entry.1.isUnresolved)
    (recorded : Records r.existingAppointments (r.plan p.conclude).creations entries) :
    ∃ p', ((r.simulation h).record entries).Reaches r.firstDay ⟨remaining, [], []⟩ p' ∧
      Simulation.Echoes p p' := by
  have scheduled : (r.schedule h remaining).result = .ok p.conclude :=
    schedule_eq_ok.mpr ⟨p, reached, rfl⟩
  have exact' := exact_record_creations exact scheduled recorded
  rw [creations_eq_required changed exact scheduled unresolved] at recorded
  obtain ⟨coming, -, ahead⟩ := exists_ahead (h := h) changed recorded r.firstDay
  have start : Simulation.Echoes ⟨remaining, [], []⟩ ⟨remaining, [], []⟩ :=
    ⟨rfl, rfl, fun _ => rfl⟩
  exact reached.echo exact' start (List.nil_append _).symm ahead

/-- After a change of an appointment, the second run keeps all that the first
one created and is left with the same shortfall. -/
theorem plans_again (changed : r.trigger.isAppointmentChange) (exact : (r.simulation h).Exact)
    (plans : r.Plans h remaining s)
    (unresolved : ∀ entry ∈ (r.plan s).retentions, entry.1.isUnresolved)
    (recorded : Records r.existingAppointments (r.plan s).creations entries) :
    ∃ s', (r.record entries).Plans h remaining s' ∧ s'.requiredAppointments = [] ∧
      s'.shortfall = s.shortfall := by
  have left := remaining_record plans (fun _ member => member) recorded
  have exact' := exact_record_creations exact plans.scheduled recorded
  obtain ⟨p, reached, rfl⟩ := schedule_eq_ok.mp plans.scheduled
  obtain ⟨p', reached', echoes⟩ := reaches_again changed exact reached unresolved recorded
  have scheduled' : ((r.record entries).schedule h remaining).result = .ok p'.conclude :=
    schedule_eq_ok.mpr ⟨p', reached', rfl⟩
  refine ⟨p'.conclude, ⟨left ▸ plans.left, plans.positive, scheduled', ?_⟩, echoes.required, ?_⟩
  · obtain ⟨total, told⟩ := plans.told
    refine Duration.total_of_nonneg (lengths_nonneg exact' scheduled') ?_
    -- Both schedules fill the same time, and the first run could tell it.
    have balance := reached.balance exact
    have balance' := reached'.balance exact'
    have sum := Duration.nanos_total told
    have := total.bounded
    rw [Schedule.timeOf_lengths] at sum ⊢
    rw [echoes.remaining] at balance'
    simp only [Progress.covered, Progress.conclude] at balance balance' sum ⊢
    omega
  · simp only [Progress.conclude, echoes.remaining]

/-- Running again after everything was made creates nothing, whatever set off
the runs: the existing appointments now suffice, or else they leave exactly the
shortfall that was left before. -/
theorem rerun_creates_nothing (admitted : r.Admitted) (regular : r.Regular)
    (produced : (r.producePlan h).result = .ok (.existingAppointmentsInsufficient plan))
    (unresolved : ∀ entry ∈ plan.retentions, entry.1.isUnresolved)
    (recorded : Records r.existingAppointments plan.creations entries) :
    (plan.shortfall = .zero →
      ((r.record entries).producePlan h).result = .ok .existingAppointmentsSufficient) ∧
    (plan.shortfall ≠ .zero → ∃ again, again.creations = [] ∧ again.shortfall = plan.shortfall ∧
      ((r.record entries).producePlan h).result = .ok (.existingAppointmentsInsufficient again)) ∧
    ((r.record entries).producePlan h).result ≠ .ok .requirementAlreadySatisfied := by
  obtain ⟨remaining, s, plans, rfl⟩ := plans_of_insufficient produced
  have again : ∃ s', (r.record entries).Plans h remaining s' ∧
      ((r.record entries).plan s').creations = [] ∧ s'.shortfall = s.shortfall := by
    by_cases changed : r.trigger.isAppointmentChange
    · obtain ⟨s', plans', nothing, same⟩ :=
        plans_again changed (admitted.exact regular h) plans unresolved recorded
      exact ⟨s', plans', by rw [creations_plan, nothing]; rfl, same⟩
    · have unchanged := Bool.eq_false_iff.mpr changed
      obtain ⟨plans', rest⟩ := plans_record unchanged plans (List.Subperm.refl _) recorded
      have length := rest.length_eq
      rw [List.length_append] at length
      exact ⟨s, plans', List.eq_nil_of_length_eq_zero (by omega), rfl⟩
  obtain ⟨s', plans', nothing, same⟩ := again
  have outcome := producePlan_of_plans plans'
  have nonneg := shortfall_nonneg plans'.scheduled
  rw [shortfall_plan, ← same, outcome]
  refine ⟨fun closed => ?_, fun left => ⟨(r.record entries).plan s', nothing, rfl, ?_⟩, ?_⟩
  · have enough : s'.shortfall.nanos ≤ 0 := Int.le_of_eq (congrArg Duration.nanos closed)
    exact congrArg _ (Plan.verdict_eq_sufficient.mpr ⟨nothing, enough⟩)
  · refine congrArg _ (Plan.verdict_eq_insufficient.mpr ⟨fun ⟨_, enough⟩ => left ?_, rfl⟩)
    exact Duration.ext (Int.le_antisymm enough nonneg)
  · unfold Plan.verdict
    split <;> simp

/-- A Monday that can be used once leaves two of four hours open in both runs. -/
theorem rerun_leaves_two_hours :
    let r := Sample.request .appointmentChange .once Sample.fourHours []
    let entries := [Sample.booking 7 Sample.monday]
    (Sample.twoHours = .zero →
      ((r.record entries).producePlan 365).result = .ok .existingAppointmentsSufficient) ∧
    (Sample.twoHours ≠ .zero →
      ∃ again, again.creations = [] ∧ again.shortfall = Sample.twoHours ∧
        ((r.record entries).producePlan 365).result =
          .ok (.existingAppointmentsInsufficient again)) ∧
    ((r.record entries).producePlan 365).result ≠ .ok .requirementAlreadySatisfied := by
  intro r entries
  let plan : Plan := ⟨[.create (Sample.slot Sample.monday)], Sample.twoHours⟩
  have produced : (r.producePlan 365).result = .ok (.existingAppointmentsInsufficient plan) := by
    cbv
  have recorded : Records r.existingAppointments plan.creations entries :=
    ⟨.refl _, by decide, by decide, by decide⟩
  exact rerun_creates_nothing (Sample.admitted (by decide)) (Sample.regular (by decide)) produced
    (by decide) recorded

end Request
end UnpaidWork
