import UnpaidWork.Proofs.LaterStart

/-!
A plan that was carried out lasts. As days pass, appointments without an outcome
come to count as worked, and a later run starts its simulation later. What is
taken off the requirement is then exactly what the first simulation scheduled
before the later day, so the later one schedules the rest of the first schedule,
and this rest is booked.
-/
namespace UnpaidWork

section Times
variable {α : Type} {length : α → Duration} {part whole : List α}

/-- Some of the items that take as long as all of them do so also among those
that a test accepts. -/
theorem timeOf_filter_eq_of_subperm (within : part.Subperm whole)
    (proper : ∀ item ∈ whole, 0 ≤ (length item).nanos)
    (same : timeOf length part = timeOf length whole) (test : α → Bool) :
    timeOf length (part.filter test) = timeOf length (whole.filter test) := by
  have chosen (choice : α → Bool) :
      timeOf length (part.filter choice) ≤ timeOf length (whole.filter choice) :=
    timeOf_subperm (within.filter choice) fun item member =>
      proper item (List.mem_filter.mp member).1
  have accepted := chosen test
  have refused := chosen fun item => !test item
  have splitPart := timeOf_filter_add length test part
  have splitWhole := timeOf_filter_add length test whole
  omega

variable {now : List ExistingAppointment} {given : List RequiredAppointment}

/-- Appointments that fill some slots do so on the dates that a test accepts. -/
theorem filter_slots (same : now.map ExistingAppointment.slot? = given.map some)
    (test : Date → Bool) : (now.filter fun a => test a.date).map ExistingAppointment.slot? =
      (given.filter fun q => test q.date).map some := by
  induction given generalizing now with
  | nil =>
    cases List.map_eq_nil_iff.mp same
    rfl
  | cons q rest ih =>
    obtain ⟨b, others, rfl, first, later⟩ := List.map_eq_cons_iff.mp same
    obtain ⟨date, -, -⟩ := RequiredAppointment.of_slot first
    cases accepted : test q.date <;> simp [date, accepted, first, ih later]

theorem timeOf_filter_of_slots (same : (now.map ExistingAppointment.slot?).Perm (given.map some))
    (test : Date → Bool) : timeOf ExistingAppointment.duration (now.filter fun a => test a.date) =
      timeOf RequiredAppointment.duration (given.filter fun q => test q.date) := by
  obtain ⟨ordered, slots, order⟩ :=
    (congrFun₂ (List.eq_map_comp_perm ExistingAppointment.slot?) _ _).mpr same.symm
  rw [← timeOf_perm (order.filter _), timeOf_of_slots (filter_slots slots.symm test)]

end Times

/-! What is taken off as days pass -/

section Remaining
variable {today later : Date} {requirement left : Duration} {existing : List ExistingAppointment}

/-- What remains is the requirement less what counts as worked and what is credited. -/
theorem nanos_remainingRequirement
    (computed : (remainingRequirement today requirement existing).result = .ok left) :
    left.nanos = requirement.nanos -
      timeOf ExistingAppointment.duration
        (existing.filter fun a => a.isUnresolved && a.date < today) -
      timeOf ExistingAppointment.credited (existing.filter (·.hasOutcome)) := by
  simp only [remainingRequirement, Traced.result_bind, Traced.result_tell, Traced.result_attempt,
    bind_eq_ok] at computed
  obtain ⟨assumed, worked, credited, recorded, _, -, uncredited, first, second⟩ := computed
  rw [Duration.minus_eq_ok.mp second, Duration.minus_eq_ok.mp first, Duration.nanos_total worked,
    Duration.nanos_total recorded, assumedLengths, credits, timeOf_map, timeOf_map]
  rfl

/-- On a later day, the appointments without an outcome between the two days
count as worked in addition. -/
theorem timeOf_assumed_later (order : today ≤ later) :
    timeOf ExistingAppointment.duration
        (existing.filter fun a => a.isUnresolved && a.date < later) =
      timeOf ExistingAppointment.duration
          (existing.filter fun a => a.isUnresolved && a.date < today) +
        timeOf ExistingAppointment.duration
          ((existing.filter fun a => a.isUnresolved && today ≤ a.date).filter
            fun a => a.date < later) := by
  rw [← timeOf_filter_add _ fun a => decide (a.date < today)]
  simp only [List.filter_filter]
  congr 2
  · refine List.filter_congr fun a _ => Bool.eq_iff_iff.mpr ?_
    simp only [Bool.and_eq_true, decide_eq_true_eq, Date.le_iff, Date.lt_iff] at order ⊢
    exact ⟨fun ⟨before, free, _⟩ => ⟨free, before⟩, fun ⟨free, before⟩ => ⟨before, free, by omega⟩⟩
  · refine List.filter_congr fun a _ => Bool.eq_iff_iff.mpr ?_
    simp only [Bool.and_eq_true, Bool.not_eq_true', decide_eq_true_eq, decide_eq_false_iff_not,
      Date.not_lt]
    exact ⟨fun ⟨from_, free, until_⟩ => ⟨until_, free, from_⟩,
      fun ⟨until_, free, from_⟩ => ⟨from_, free, until_⟩⟩

end Remaining

namespace Request

/-- The existing appointments carry out a schedule that leaves nothing open. Its
simulation for `remaining` ends with `p`, nothing that this requires is missing,
and whichever dates are looked at, the coming appointments last as long as what
`p` schedules there. -/
structure Provided (r : Request) (h : UInt32) (remaining : Duration) (p : Progress) : Prop where
  reached : (r.simulation h).Reaches r.firstDay ⟨remaining, [], []⟩ p
  done : p.remaining.nanos ≤ 0
  met : missing r.existingAppointments (p.forced.map (·.id)) p.required = []
  booked : ∀ test : Date → Bool,
    timeOf ExistingAppointment.duration (r.upcomingUnresolved.filter fun a => test a.date) =
      timeOf RequiredAppointment.duration (p.required.filter fun q => test q.date) +
        timeOf ExistingAppointment.duration (p.forced.filter fun a => test a.date)

variable {r : Request} {h : UInt32} {remaining left : Duration} {p m q : Progress} {today : Date}

theorem Provided.scheduled (provided : r.Provided h remaining p) :
    (r.schedule h remaining).result = .ok p.conclude :=
  schedule_eq_ok.mpr ⟨p, provided.reached, rfl⟩

/-- What counts as worked by a later day is what was scheduled before it, so what
is left to do then is what the simulation had left when it came to this day. -/
theorem Provided.left_later (provided : r.Provided h remaining p)
    (computed : (remainingRequirement r.today r.requirement r.existingAppointments).result =
      .ok remaining)
    (later : r.today ≤ today)
    (required : m.required = p.required.filter fun q => q.date < today)
    (forced : m.forced = p.forced.filter fun b => b.date < today)
    (balance : m.covered + m.remaining.nanos = remaining.nanos)
    (computedLater : (remainingRequirement today r.requirement r.existingAppointments).result =
      .ok left) : left = m.remaining := by
  have before := nanos_remainingRequirement computed
  have after := nanos_remainingRequirement computedLater
  have worked : timeOf ExistingAppointment.duration
      (r.upcomingUnresolved.filter fun a => a.date < today) = m.covered := by
    rw [provided.booked fun d => d < today, Progress.covered, required, forced]
  rw [timeOf_assumed_later later] at after
  rw [upcomingUnresolved] at worked
  apply Duration.ext
  omega

/-- What a schedule requires from a later day on is not missing then, since
appointments of earlier dates meet nothing of it. -/
theorem Provided.met_later (provided : r.Provided h remaining (m.after q))
    (distinct : (r.existingAppointments.map (·.id)).Nodup)
    (required : ∀ x ∈ m.required, x.date < today) (forced : ∀ b ∈ m.forced, b.date < today)
    (coming : ∀ x ∈ q.required, today ≤ x.date) :
    missing r.existingAppointments (q.forced.map (·.id)) q.required = [] := by
  have met := provided.met
  simp only [Progress.after, missing_append, List.append_eq_nil_iff] at met
  rw [← met.2]
  refine missing_congr fun a present meets => ?_
  obtain ⟨x, inRequired, slot⟩ := meets
  have dated : today ≤ a.date := (RequiredAppointment.of_slot slot).1 ▸ coming x inRequired
  have settled :=
    settle_settled r.existingAppointments ((m.forced ++ q.forced).map (·.id)) m.required
  -- An existing appointment of an earlier date is another one, so it has another id.
  have apart : ∀ b ∈ r.existingAppointments, b.date < today → b.id ≠ a.id := by
    intro b other early same
    have equal : b = a := List.inj_on_of_nodup_map distinct other present same
    exact Date.not_le.mpr early (equal ▸ dated)
  rw [settled.taken]
  constructor
  · intro kept
    obtain ⟨b, inForced, same⟩ := List.mem_map.mp kept
    exact .inl (List.mem_map.mpr ⟨b, List.mem_append_right _ inForced, same⟩)
  · rintro (kept | met)
    · obtain ⟨b, inForced, same⟩ := List.mem_map.mp kept
      rcases List.mem_append.mp inForced with before | after
      · have existing := (schedule_coming provided.scheduled).2.subset inForced
        exact absurd same (apart b (List.mem_filter.mp existing).1 (forced b before))
      · exact List.mem_map.mpr ⟨b, after, same⟩
    · obtain ⟨b, inMet, same⟩ := List.mem_map.mp met
      obtain ⟨other, y, early, slot⟩ := settled.meets b inMet
      have date := (RequiredAppointment.of_slot slot).1
      exact absurd same (apart b other (date ▸ required y early))

/-- What was scheduled before some day takes no negative time. -/
theorem Provided.covered_nonneg (provided : r.Provided h remaining (m.after q))
    (exact : (r.simulation h).Exact) : 0 ≤ m.covered := by
  have proper := lengths_nonneg exact provided.scheduled
  have required : 0 ≤ timeOf RequiredAppointment.duration m.required :=
    timeOf_nonneg fun x member => proper x.duration
      (List.mem_append_left _ (List.mem_map_of_mem (List.mem_append_left _ member)))
  have forced : 0 ≤ timeOf ExistingAppointment.duration m.forced :=
    timeOf_nonneg fun b member => proper b.duration
      (List.mem_append_right _ (List.mem_map_of_mem (List.mem_append_left _ member)))
  rw [Progress.covered]
  omega

/-- On a later day nothing is left to do, or the schedule for what is left has
nothing to create and leaves nothing open. It fills no more time than before. -/
theorem Provided.onDay (provided : r.Provided h remaining p) (exact : (r.simulation h).Exact)
    (recurring : ∀ a ∈ r.allocations, a.frequency ≠ .once)
    (distinct : (r.existingAppointments.map (·.id)).Nodup)
    (computed : (remainingRequirement r.today r.requirement r.existingAppointments).result =
      .ok remaining)
    (later : r.today ≤ today)
    (computedLater : (remainingRequirement today r.requirement r.existingAppointments).result =
      .ok left) :
    left.nanos ≤ 0 ∨ ∃ s, ((r.onDay today).schedule h left).result = .ok s ∧
      ((r.onDay today).plan s).creations = [] ∧ s.shortfall.nanos ≤ 0 ∧
      timeOf id s.lengths ≤ p.covered := by
  have recurring : ∀ a ∈ (r.simulation h).allocations, a.frequency ≠ .once :=
    fun a member => recurring a (mem_simulation_allocations.mp member)
  obtain ⟨m, required, forced, ends⟩ := provided.reached.cut rfl later
  have balance : m.covered + m.remaining.nanos = remaining.nanos := by
    have whole := provided.reached.balance exact
    simp only [Progress.covered, timeOf_nil] at whole
    rcases ends with rfl | rest
    · rw [Progress.covered]
      omega
    · have part := rest.balance exact
      simp only [Progress.covered] at part ⊢
      omega
  cases provided.left_later computed later required forced balance computedLater
  by_cases nothing : m.remaining.nanos ≤ 0
  · exact .inl nothing
  · rcases ends with rfl | rest
    · exact absurd provided.done nothing
    · rw [← m.after_start] at rest
      obtain ⟨q, rfl, reached⟩ := rest.onDay recurring later provided.done
      have scheduled : ((r.onDay today).schedule h m.remaining).result = .ok q.conclude :=
        schedule_eq_ok.mpr ⟨q, reached, rfl⟩
      refine .inr ⟨q.conclude, scheduled, ?_, ?_, ?_⟩
      · rw [creations_plan]
        have requiredBefore : ∀ x ∈ m.required, x.date < today := by
          rw [required]
          simp
        have forcedBefore : ∀ b ∈ m.forced, b.date < today := by
          rw [forced]
          simp
        have coming := (schedule_coming scheduled).1
        exact provided.met_later distinct requiredBefore forcedBefore coming
      · have done : q.remaining.nanos ≤ 0 := provided.done
        rw [q.nanos_shortfall]
        omega
      · have before := provided.covered_nonneg exact
        rw [Schedule.timeOf_lengths]
        simp only [Progress.conclude, Progress.covered, Progress.after, timeOf_append] at before ⊢
        omega

/-! A plan that was carried out -/

variable {s : Schedule} {entries : List ExistingAppointment}

/-- If a plan retains nothing as surplus and nothing with an outcome, then once
its creations were made the coming appointments last as long as the schedule,
whichever dates are looked at. -/
theorem timeOf_upcoming_record (distinct : (r.existingAppointments.map (·.id)).Nodup)
    (scheduled : (r.schedule h remaining).result = .ok s)
    (unresolved : ∀ entry ∈ (r.plan s).retentions, entry.1.isUnresolved)
    (noSurplus : ∀ entry ∈ (r.plan s).retentions, entry.2 ≠ .surplus)
    (recorded : Records r.existingAppointments (r.plan s).creations entries)
    (test : Date → Bool) :
    timeOf ExistingAppointment.duration
        ((r.record entries).upcomingUnresolved.filter fun a => test a.date) =
      timeOf RequiredAppointment.duration (s.requiredAppointments.filter fun q => test q.date) +
        timeOf ExistingAppointment.duration (s.forcedRetentions.filter fun a => test a.date) := by
  have noExtra : r.surplus s = [] := List.eq_nil_iff_forall_not_mem.mpr fun a extra =>
    noSurplus (a, .surplus) (by simp [retentions_plan, extra]) rfl
  have standing : (r.needed s).filter ExistingAppointment.isUnresolved = r.needed s := by
    refine List.filter_eq_self.mpr fun a member => ?_
    have none := List.filter_eq_nil_iff.mp (retained_unresolved_iff.mp unresolved) a member
    simpa [ExistingAppointment.isUnresolved] using none
  have old : r.upcomingUnresolved.Perm (r.needed s) := by
    simpa [noExtra, standing] using upcoming_perm distinct scheduled
  have coming := entries_coming scheduled (fun _ member => member) recorded
  have new : (r.record entries).upcomingUnresolved = r.upcomingUnresolved ++ entries := by
    have all : entries.filter (fun a => a.isUnresolved && r.today ≤ a.date) = entries :=
      List.filter_eq_self.mpr fun a member => by
        simp [recorded.unresolved a member, coming a member]
    exact (List.filter_append _ _).trans (congrArg (r.upcomingUnresolved ++ ·) all)
  have slots : ((meeting r.existingAppointments (forcedIds s) s.requiredAppointments ++
      entries).map ExistingAppointment.slot?).Perm (s.requiredAppointments.map some) := by
    have made := recorded.slots
    rw [creations_plan] at made
    rw [List.map_append]
    exact ((made.append_left _).trans List.perm_append_comm).trans (slots_settle_perm _ _)
  have split := timeOf_filter_of_slots slots test
  rw [List.filter_append, timeOf_append] at split
  rw [new, List.filter_append, timeOf_append, timeOf_perm (old.filter _), needed,
    List.filter_append, timeOf_append]
  omega

/-- Once the creations of a plan without a shortfall were made, the request
provides for its schedule, or for one that keeps them if an appointment was
changed. -/
theorem provided_record (exact : (r.simulation h).Exact)
    (distinct : (r.existingAppointments.map (·.id)).Nodup)
    (scheduled : (r.schedule h remaining).result = .ok s) (closed : s.shortfall.nanos ≤ 0)
    (unresolved : ∀ entry ∈ (r.plan s).retentions, entry.1.isUnresolved)
    (noSurplus : ∀ entry ∈ (r.plan s).retentions, entry.2 ≠ .surplus)
    (recorded : Records r.existingAppointments (r.plan s).creations entries) :
    ∃ p, (r.record entries).Provided h remaining p ∧ p.covered = timeOf id s.lengths := by
  have exact' := exact_record_creations exact scheduled recorded
  have booked := timeOf_upcoming_record distinct scheduled unresolved noSurplus recorded
  have creates := creations_record scheduled (List.Subperm.refl _) recorded
  obtain ⟨p, reached, rfl⟩ := schedule_eq_ok.mp scheduled
  rw [p.nanos_shortfall] at closed
  have done : p.remaining.nanos ≤ 0 := by omega
  rw [Schedule.timeOf_lengths]
  by_cases changed : r.trigger.isAppointmentChange
  · obtain ⟨p', reached', echoes⟩ := reaches_again changed exact reached unresolved recorded
    have covered : p'.covered = p.covered := by
      have balance := reached.balance exact
      have balance' := reached'.balance exact'
      rw [echoes.remaining] at balance'
      omega
    refine ⟨p', ⟨reached', echoes.remaining ▸ done, ?_, fun test => ?_⟩, covered⟩
    · rw [echoes.required]
      rfl
    · have scheduled' : ((r.record entries).schedule h remaining).result = .ok p'.conclude :=
        schedule_eq_ok.mpr ⟨p', reached', rfl⟩
      have within : p'.forced.Subperm (r.record entries).upcomingUnresolved :=
        (schedule_coming scheduled').2
      have kept : timeOf ExistingAppointment.duration p'.forced =
          timeOf ExistingAppointment.duration (r.record entries).upcomingUnresolved := by
        have whole := booked fun _ => true
        simp only [Progress.covered, echoes.required, timeOf_nil] at covered
        simp only [List.filter_true, Progress.conclude] at whole
        omega
      rw [echoes.required, timeOf_filter_eq_of_subperm within
        (fun b member => exact'.proper b (List.mem_filter.mp member).1) kept]
      simp
  · have unchanged := Bool.eq_false_iff.mpr changed
    refine ⟨p, ⟨reached.record unchanged, done, ?_, booked⟩, rfl⟩
    have length := creates.length_eq
    rw [List.length_append] at length
    have nothing : ((r.record entries).plan p.conclude).creations = [] :=
      List.eq_nil_of_length_eq_zero (by omega)
    rwa [creations_plan] at nothing

/-- A plan without a shortfall, without surplus and without recorded outcomes
lasts. Once its creations were made, a run on any later day that gets to an
outcome finds the requirement met or the existing appointments sufficient. If
the first run could tell how much its schedule fills, then the later one gets to
an outcome as soon as it can tell what is left. -/
theorem plan_lasts (admitted : r.Admitted) (regular : r.Regular)
    (recurring : ∀ a ∈ r.allocations, a.frequency ≠ .once)
    (distinct : (r.existingAppointments.map (·.id)).Nodup)
    (computed : (remainingRequirement r.today r.requirement r.existingAppointments).result =
      .ok remaining)
    (scheduled : (r.schedule h remaining).result = .ok s) (closed : (r.plan s).shortfall = .zero)
    (unresolved : ∀ entry ∈ (r.plan s).retentions, entry.1.isUnresolved)
    (noSurplus : ∀ entry ∈ (r.plan s).retentions, entry.2 ≠ .surplus)
    (recorded : Records r.existingAppointments (r.plan s).creations entries)
    (later : r.today ≤ today) :
    (∀ outcome, (((r.record entries).onDay today).producePlan h).result = .ok outcome →
      outcome = .requirementAlreadySatisfied ∨ outcome = .existingAppointmentsSufficient) ∧
    ((∃ total, s.totalScheduled = .ok total) →
      (∃ left, (remainingRequirement today r.requirement
        (r.existingAppointments ++ entries)).result = .ok left) →
      ∃ outcome, (((r.record entries).onDay today).producePlan h).result = .ok outcome) := by
  have exact := admitted.exact regular h
  have exact' : ((r.record entries).simulation h).Exact :=
    exact_record_creations exact scheduled recorded
  have coming := entries_coming scheduled (fun _ member => member) recorded
  have computed' := remainingRequirement_append recorded.unresolved coming ▸ computed
  have distinct' := recorded.ids_nodup distinct
  obtain ⟨p, provided, covered⟩ := provided_record exact distinct scheduled
    (Int.le_of_eq (congrArg Duration.nanos closed)) unresolved noSurplus recorded
  constructor
  · intro outcome produced
    rcases plans_of_producePlan produced with satisfied | ⟨left, s', plans, verdict⟩
    · exact .inl satisfied
    · rcases provided.onDay exact' recurring distinct' computed' later plans.left with
        nothing | ⟨again, same, creates, enough, -⟩
      · exact absurd plans.positive (Int.not_lt.mpr nothing)
      · cases plans.scheduled.symm.trans same
        rw [← verdict]
        exact .inr (Plan.verdict_eq_sufficient.mpr ⟨creates, enough⟩)
  · rintro ⟨total, told⟩ ⟨left, computedLater⟩
    by_cases nothing : left.nanos ≤ 0
    · have satisfied : (((r.record entries).onDay today).producePlan h).result =
          .ok .requirementAlreadySatisfied := by
        rw [producePlan_of_left (r := (r.record entries).onDay today) computedLater, if_pos nothing]
      exact ⟨_, satisfied⟩
    · rcases provided.onDay exact' recurring distinct' computed' later computedLater with
        done | ⟨again, same, -, -, fits⟩
      · exact absurd done nothing
      · have exactLater : (((r.record entries).onDay today).simulation h).Exact :=
          ⟨exact'.divisible, exact'.proper⟩
        have sum := Duration.nanos_total told
        have bounded := total.bounded
        have toldLater := Duration.total_of_nonneg (lengths_nonneg exactLater same) (by omega)
        have positive := Int.not_le.mp nothing
        exact ⟨_, producePlan_of_plans ⟨computedLater, positive, same, toldLater⟩⟩

/-- Of four hours the booked Monday is kept and the next one was made. A week
later the first counts as worked, and the second is still enough. -/
theorem plan_lasts_a_week :
    let booked := Sample.booking 7 Sample.monday
    let r := Sample.request .appointmentChange .weekly Sample.fourHours [booked]
    let s : Schedule := ⟨[Sample.slot Sample.nextMonday], [booked], .zero⟩
    let entries := [Sample.booking 8 Sample.nextMonday]
    (∀ outcome,
      (((r.record entries).onDay Sample.nextMonday).producePlan 365).result = .ok outcome →
        outcome = .requirementAlreadySatisfied ∨ outcome = .existingAppointmentsSufficient) ∧
    ((∃ total, s.totalScheduled = .ok total) →
      (∃ left, (remainingRequirement Sample.nextMonday r.requirement
        (r.existingAppointments ++ entries)).result = .ok left) →
      ∃ outcome,
        (((r.record entries).onDay Sample.nextMonday).producePlan 365).result = .ok outcome) := by
  intro booked r s entries
  have computed : (remainingRequirement r.today r.requirement r.existingAppointments).result =
      .ok Sample.fourHours := by
    cbv
  have scheduled : (r.schedule 365 Sample.fourHours).result = .ok s := by cbv
  have recorded : Records r.existingAppointments (r.plan s).creations entries :=
    ⟨.refl _, by decide, by decide, by decide⟩
  have closed : (r.plan s).shortfall = .zero := rfl
  have unresolved : ∀ entry ∈ (r.plan s).retentions, entry.1.isUnresolved := by decide
  have noSurplus : ∀ entry ∈ (r.plan s).retentions, entry.2 ≠ .surplus := by decide
  have later : r.today ≤ Sample.nextMonday := by decide
  exact plan_lasts (Sample.admitted (by decide)) (Sample.regular (by decide)) (by decide)
    (by decide) computed scheduled closed unresolved noSurplus recorded later

end Request
end UnpaidWork
