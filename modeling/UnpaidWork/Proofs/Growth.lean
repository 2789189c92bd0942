import UnpaidWork.Proofs.Overshoot

/-!
A schedule for more time, or one that looks further ahead, goes on where the
smaller one ends. The two simulations take the same steps while both have time
left; the smaller one ends first, at its horizon or by cutting an appointment
that the larger one grants for longer. So what is scheduled early never moves or
drops out, and the shortfall grows by no more than the time that was added.
-/
namespace UnpaidWork

namespace RequiredAppointment

/-- The same appointment again, or one in its place that goes on for longer. -/
structure ProlongedBy (q q' : RequiredAppointment) : Prop where
  date : q'.date = q.date
  startTime : q'.startTime = q.startTime
  projectCode : q'.projectCode = q.projectCode
  allocationId : q'.allocationId = q.allocationId
  endTime : q.endTime ≤ q'.endTime
  duration : q.duration ≤ q'.duration

theorem ProlongedBy.rfl {q : RequiredAppointment} : q.ProlongedBy q :=
  ⟨Eq.refl _, Eq.refl _, Eq.refl _, Eq.refl _, Nat.le_refl _, Int.le_refl _⟩

/-- One list of appointments goes on where another ends: it starts with the same
ones, only the last of which it may prolong. -/
inductive Continue : List RequiredAppointment → List RequiredAppointment → Prop
  | onward (given more : List RequiredAppointment) : Continue given (given ++ more)
  | prolonged (given more : List RequiredAppointment) {q q' : RequiredAppointment}
      (last : q.ProlongedBy q') : Continue (given ++ [q]) (given ++ q' :: more)

namespace Continue
variable {given longer : List RequiredAppointment}

theorem append (continued : Continue given longer) (more : List RequiredAppointment) :
    Continue given (longer ++ more) := by
  cases continued with
  | onward given first =>
    rw [List.append_assoc]
    exact .onward given _
  | prolonged given first last =>
    rw [List.append_assoc, List.cons_append]
    exact .prolonged given _ last

theorem timeOf_le (continued : Continue given longer)
    (proper : ∀ q ∈ longer, 0 ≤ q.duration.nanos) :
    timeOf RequiredAppointment.duration given ≤ timeOf RequiredAppointment.duration longer := by
  cases continued with
  | onward given more =>
    have rest : 0 ≤ timeOf RequiredAppointment.duration more :=
      timeOf_nonneg fun q member => proper q (List.mem_append_right _ member)
    rw [timeOf_append]
    omega
  | @prolonged given more q q' last =>
    have rest : 0 ≤ timeOf RequiredAppointment.duration more :=
      timeOf_nonneg fun q member => proper q (by simp [member])
    have duration := Duration.le_iff.mp last.duration
    simp only [timeOf_append, timeOf_cons, timeOf_nil]
    omega

theorem dropLast_prefix (continued : Continue given longer) : given.dropLast <+: longer := by
  cases continued with
  | onward given more => exact (List.dropLast_prefix given).trans (List.prefix_append given more)
  | prolonged given more last =>
    rw [List.dropLast_concat]
    exact List.prefix_append _ _

/-- The last appointment keeps its place, and ends no earlier. -/
theorem last (continued : Continue given longer) {q : RequiredAppointment}
    (isLast : given.getLast? = some q) :
    ∃ q', longer[given.length - 1]? = some q' ∧ q.ProlongedBy q' := by
  cases continued with
  | onward given more =>
    obtain ⟨before, rfl⟩ := List.getLast?_eq_some_iff.mp isLast
    exact ⟨q, by simp, .rfl⟩
  | @prolonged given more own q' last =>
    rw [List.getLast?_concat] at isLast
    cases isLast
    exact ⟨q', by simp, last⟩

end Continue
end RequiredAppointment

open RequiredAppointment (Continue)

/-- The longer an allocation is used, the later the use ends. -/
def Allocation.Prolongable (a : Allocation) : Prop :=
  ∀ length longer : Duration, 0 ≤ length.nanos → length ≤ longer → longer ≤ a.duration →
    a.startTime.shift length ≤ a.startTime.shift longer

namespace Progress
variable {day : Date} {usable : List Allocation} {p p' q q' final : Progress} {extra : Int}

/-- The same is scheduled, and some more time remains. -/
structure Richer (extra : Int) (p p' : Progress) : Prop where
  required : p'.required = p.required
  forced : p'.forced = p.forced
  remaining : p'.remaining.nanos = p.remaining.nanos + extra

/-- All that is scheduled in the one is scheduled in the other, which goes on from there. -/
structure Continues (p p' : Progress) : Prop where
  required : Continue p.required p'.required
  forced : p.forced <+: p'.forced

theorem Richer.continues (richer : Richer extra p p') : p.Continues p' := by
  refine ⟨?_, by rw [richer.forced]⟩
  have same : p'.required = p.required ++ [] := by rw [richer.required, List.append_nil]
  rw [same]
  exact .onward _ _

theorem Continues.adds {given : List RequiredAppointment} {kept : List ExistingAppointment}
    (continues : p.Continues q) (required : final.required = q.required ++ given)
    (forced : final.forced = q.forced ++ kept) : p.Continues final := by
  refine ⟨?_, ?_⟩
  · rw [required]
    exact continues.required.append given
  · rw [forced]
    exact continues.forced.trans (List.prefix_append _ _)

theorem Richer.schedule (richer : Richer extra p p') : p'.schedule = p.schedule := by
  rw [Progress.schedule, Progress.schedule, richer.required, richer.forced]

theorem appointmentOf_prolongedBy {a : Allocation} {length longer : Duration}
    (divisible : a.Divisible) (prolongable : a.Prolongable) (positive : 0 ≤ length.nanos)
    (order : length ≤ longer) (fits : longer ≤ a.duration) :
    (appointmentOf day a length).ProlongedBy (appointmentOf day a longer) := by
  refine ⟨rfl, rfl, rfl, rfl, prolongable length longer positive order fits, ?_⟩
  have own := divisible.cut length positive (Int.le_trans order fits)
  have other := divisible.cut longer (Int.le_trans positive order) fits
  simp only [appointmentOf, RequiredAppointment.duration, own, other]
  exact order

theorem richer_start (remaining remaining' : Duration) :
    Richer (remaining'.nanos - remaining.nanos) ⟨remaining, [], []⟩ ⟨remaining', [], []⟩ := by
  refine ⟨rfl, rfl, ?_⟩
  dsimp only
  omega

/-- Nothing more is granted once nothing remains. -/
theorem grant_of_nothing (nothing : p.remaining.nanos ≤ 0)
    (granted : (grant day usable p).result = .ok q) : q = p := by
  cases usable with
  | nil =>
    cases granted
    rfl
  | cons a rest =>
    rcases grant_cons granted with ⟨-, same⟩ | ⟨something, -⟩
    · exact same
    · omega

/-- Granting the allocations of a day with more time left: either the day grants
the same, or it is where the time of the poorer one is used up. -/
theorem grant_richer (divisible : ∀ a ∈ usable, a.Divisible)
    (prolongable : ∀ a ∈ usable, a.Prolongable) (enough : 0 ≤ extra) (richer : Richer extra p p')
    (granted : (grant day usable p).result = .ok q)
    (granted' : (grant day usable p').result = .ok q') :
    Richer extra q q' ∨ q.remaining.nanos ≤ 0 ∧ q.Continues q' := by
  induction usable generalizing p p' with
  | nil =>
    cases granted
    cases granted'
    exact .inl richer
  | cons a rest ih =>
    have more := richer.remaining
    rcases grant_cons granted with ⟨nothing, rfl⟩ | ⟨something, left, subtracted, later⟩
    · obtain ⟨forced, given, required, -⟩ := grant_appends granted'
      exact .inr ⟨nothing, richer.continues.adds required (by rw [forced, List.append_nil])⟩
    rcases grant_cons granted' with ⟨nothing, -⟩ | ⟨something', left', subtracted', later'⟩
    · omega
    have own := (divisible a List.mem_cons_self).positive
    have shorter := Duration.nanos_min p.remaining a.duration
    have shorter' := Duration.nanos_min p'.remaining a.duration
    by_cases whole : a.duration.nanos ≤ p.remaining.nanos
    · have length : p.remaining.min a.duration = a.duration := Duration.ext (by omega)
      have length' : p'.remaining.min a.duration = a.duration := Duration.ext (by omega)
      have onward : Richer extra
          ⟨left, p.required ++ [appointmentOf day a (p.remaining.min a.duration)], p.forced⟩
          ⟨left', p'.required ++ [appointmentOf day a (p'.remaining.min a.duration)],
            p'.forced⟩ := by
        refine ⟨?_, richer.forced, ?_⟩
        · dsimp only
          rw [length, length', richer.required]
        · dsimp only
          omega
      exact ih (fun b member => divisible b (List.mem_cons_of_mem a member))
        (fun b member => prolongable b (List.mem_cons_of_mem a member)) onward later later'
    · -- The slot takes all that is left to the poorer one, and at least as much from the other.
      have order : p.remaining.min a.duration ≤ p'.remaining.min a.duration := by
        rw [Duration.le_iff]
        omega
      have fits : p'.remaining.min a.duration ≤ a.duration := by
        rw [Duration.le_iff]
        omega
      obtain ⟨forced, given, required, -⟩ := grant_appends later'
      cases grant_of_nothing (by dsimp only; omega) later
      refine .inr ⟨by dsimp only; omega, ?_, ?_⟩
      · rw [required, List.append_assoc, List.singleton_append, richer.required]
        exact .prolonged _ _ (appointmentOf_prolongedBy (divisible a List.mem_cons_self)
          (prolongable a List.mem_cons_self) (by omega) order fits)
      · rw [forced]
        exact richer.continues.forced

end Progress

namespace Simulation
variable {sim : Simulation} {start : Option Date} {day : Date} {h' : UInt32} {extra : Int}
variable {p p' q q' final final' : Progress}

/-- The same simulation, to another horizon. -/
def within (sim : Simulation) (h' : UInt32) : Simulation :=
  { sim with maxHorizonDays := h' }

/-- With more time left, and to a later horizon, the simulation goes on as well. -/
theorem GoesOn.richer (enough : 0 ≤ extra) (farther : sim.maxHorizonDays ≤ h')
    (richer : p.Richer extra p') (goesOn : sim.GoesOn day p) : (sim.within h').GoesOn day p' := by
  obtain ⟨remains, inHorizon, possible⟩ := goesOn
  have more := richer.remaining
  have later := UInt32.le_iff_toNat_le.mp farther
  refine ⟨by omega, ?_, ?_⟩
  · dsimp only [within]
    omega
  · rw [richer.schedule]
    exact possible

/-- While time remains, more of it does not make the simulation go on. -/
theorem GoesOn.poorer (remains : 0 < p.remaining.nanos) (richer : p.Richer extra p')
    (goesOn : sim.GoesOn day p') : sim.GoesOn day p := by
  obtain ⟨-, inHorizon, possible⟩ := goesOn
  rw [richer.schedule] at possible
  exact ⟨remains, inHorizon, possible⟩

/-- A day with more time left does the same, or it is where the time of the
poorer simulation is used up. -/
theorem Passes.richer (exact : sim.Exact) (prolongable : ∀ a ∈ sim.allocations, a.Prolongable)
    (enough : 0 ≤ extra) (richer : p.Richer extra p') (passed : sim.Passes day p q)
    (passed' : (sim.within h').Passes day p' q') :
    q.Richer extra q' ∨ q.remaining.nanos ≤ 0 ∧ q.Continues q' := by
  have same : (sim.within h').applicable day p' = sim.applicable day p := by
    rw [applicable, richer.schedule]
    rfl
  cases passed.alongside same Iff.rfl passed' with
  | idle => exact .inl richer
  | keeps kept kept' =>
    obtain ⟨remaining, required, forced⟩ := Progress.keepBooked_appends kept
    obtain ⟨remaining', required', forced'⟩ := Progress.keepBooked_appends kept'
    have more := richer.remaining
    refine .inl ⟨?_, ?_, ?_⟩
    · rw [required, required', richer.required]
    · rw [forced, forced', richer.forced]
      rfl
    · rw [remaining, remaining', more]
      change _ - timeOf ExistingAppointment.duration (sim.booked day) = _
      omega
  | grants granted granted' =>
    exact Progress.grant_richer exact.divisible_of_applicable
      (fun a member => prolongable a (List.mem_filter.mp member).1) enough richer granted granted'

/-- A walk with more time left, or to a later horizon, goes on where the other
one ends. To the same horizon it is left with all the time it has more, if the
other one is left with some. -/
theorem Reaches.richer (exact : sim.Exact) (prolongable : ∀ a ∈ sim.allocations, a.Prolongable)
    (enough : 0 ≤ extra) (farther : sim.maxHorizonDays ≤ h') (richer : p.Richer extra p')
    (reached : sim.Reaches start p final) (reached' : (sim.within h').Reaches start p' final') :
    final.Continues final' ∧ (sim.maxHorizonDays = h' → 0 < final.remaining.nanos →
      final'.remaining.nanos = final.remaining.nanos + extra) := by
  induction reached generalizing p' with
  | calendarEnds =>
    cases reached'
    exact ⟨richer.continues, fun _ _ => richer.remaining⟩
  | stops ended =>
    obtain ⟨given, kept, adds⟩ := reached'.adds
    refine ⟨richer.continues.adds adds.required adds.forced, ?_⟩
    rintro rfl remains
    cases reached' with
    | stops => exact richer.remaining
    | passes goesOn' => exact absurd (GoesOn.poorer remains richer goesOn') ended
  | passes goesOn passed rest ih =>
    cases reached' with
    | stops ended => exact absurd (goesOn.richer enough farther richer) ended
    | passes _ passed' rest' =>
      rcases passed.richer exact prolongable enough richer passed' with same | ⟨nothing, continues⟩
      · exact ih same rest'
      · cases rest.eq_of_nothing nothing
        obtain ⟨given, kept, adds⟩ := rest'.adds
        exact ⟨continues.adds adds.required adds.forced,
          fun _ remains => absurd remains (Int.not_lt.mpr nothing)⟩

end Simulation

/-- Another schedule goes on where this one ends: nothing that is scheduled early
moves or drops out, only the last required appointment may end later. -/
structure Schedule.ContinuedBy (s s' : Schedule) : Prop where
  forced : s.forcedRetentions <+: s'.forcedRetentions
  required : s.requiredAppointments.dropLast <+: s'.requiredAppointments
  last : ∀ q, s.requiredAppointments.getLast? = some q →
    ∃ q', s'.requiredAppointments[s.requiredAppointments.length - 1]? = some q' ∧ q.ProlongedBy q'

namespace Request
variable {r : Request} {h h' : UInt32} {remaining remaining' : Duration} {s s' : Schedule}

theorem Regular.prolongable (regular : r.Regular) : ∀ a ∈ r.allocations, a.Prolongable := by
  intro a member length longer positive order fits
  obtain ⟨start, finish⟩ := regular.allocations a member
  exact TimeOfDay.shift_le_shift start finish positive order fits

/-- A longer list of appointments that all take some time takes no less time. -/
theorem timeOf_le_of_continues {p p' : Progress} (exact : (r.simulation h').Exact)
    (scheduled : (r.schedule h' remaining').result = .ok p'.conclude) (continues : p.Continues p') :
    p.covered ≤ p'.covered := by
  have proper := lengths_nonneg exact scheduled
  have required := continues.required.timeOf_le fun q member =>
    proper _ (List.mem_append_left _ (List.mem_map_of_mem member))
  obtain ⟨more, forced⟩ := continues.forced
  have kept : 0 ≤ timeOf ExistingAppointment.duration more := timeOf_nonneg fun b member =>
    proper _ (List.mem_append_right _ (List.mem_map_of_mem (by
      simp [Progress.conclude, ← forced, member])))
  rw [Progress.covered, Progress.covered, ← forced, timeOf_append]
  omega

/-- More time to fill and a later horizon only prolong a schedule at its end,
and the shortfall grows by no more than the time that was added. -/
theorem schedule_goes_on (admitted : r.Admitted) (regular : r.Regular) (farther : h ≤ h')
    (more : remaining ≤ remaining') (scheduled : (r.schedule h remaining).result = .ok s)
    (scheduled' : (r.schedule h' remaining').result = .ok s') :
    s.ContinuedBy s' ∧ (h = h' → s.shortfall ≤ s'.shortfall) ∧
      (remaining = remaining' → s'.shortfall ≤ s.shortfall) ∧
      s'.shortfall.nanos ≤
        s.shortfall.nanos + max 0 remaining'.nanos - max 0 remaining.nanos := by
  have exact := admitted.exact regular h
  have exact' := admitted.exact regular h'
  have longer := scheduled'
  obtain ⟨p, reached, rfl⟩ := schedule_eq_ok.mp scheduled
  obtain ⟨p', reached', rfl⟩ := schedule_eq_ok.mp scheduled'
  rw [Duration.le_iff] at more
  obtain ⟨continues, sameHorizon⟩ := reached.richer exact
    (fun a member => regular.prolongable a (mem_simulation_allocations.mp member))
    (Int.sub_nonneg.mpr more) farther (Progress.richer_start remaining remaining') reached'
  have covered := timeOf_le_of_continues exact' longer continues
  have balance := reached.balance exact
  have balance' := reached'.balance exact'
  simp only [Progress.covered, timeOf_nil] at covered balance balance'
  refine ⟨⟨continues.forced, continues.required.dropLast_prefix, fun q isLast =>
    continues.required.last isLast⟩, ?_, ?_, ?_⟩
  · intro same
    rw [Duration.le_iff, p.nanos_shortfall, p'.nanos_shortfall]
    by_cases remains : 0 < p.remaining.nanos
    · have := sameHorizon same remains
      omega
    · omega
  · rintro rfl
    rw [Duration.le_iff, p.nanos_shortfall, p'.nanos_shortfall]
    omega
  · rw [p.nanos_shortfall, p'.nanos_shortfall]
    by_cases positive : 0 < remaining.nanos
    · omega
    · cases reached.eq_of_nothing (Int.not_lt.mp positive)
      simp only [timeOf_nil] at covered
      omega

/-- Two Mondays within eight days hold four hours: of the three hours that a schedule
fills the second gets one, and two hours more prolong it and leave an hour. -/
theorem two_hours_more_prolong_a_monday :
    let threeHours : Duration := ⟨10800000000000, by decide⟩
    let fiveHours : Duration := ⟨18000000000000, by decide⟩
    let r := Sample.request .appointmentChange .weekly fiveHours []
    let eleven : TimeOfDay := .wrap 39600 0
    let s : Schedule := ⟨[Sample.slot Sample.monday,
      { Sample.slot Sample.nextMonday with endTime := eleven }], [], .zero⟩
    let s' : Schedule := ⟨[Sample.slot Sample.monday, Sample.slot Sample.nextMonday], [],
      ⟨3600000000000, by decide⟩⟩
    (r.schedule 8 threeHours).result = .ok s ∧ (r.schedule 8 fiveHours).result = .ok s' ∧
      s.ContinuedBy s' ∧ ((8 : UInt32) = 8 → s.shortfall ≤ s'.shortfall) ∧
      (threeHours = fiveHours → s'.shortfall ≤ s.shortfall) ∧
      s'.shortfall.nanos ≤ s.shortfall.nanos + max 0 fiveHours.nanos - max 0 threeHours.nanos := by
  intro threeHours fiveHours r eleven s s'
  have scheduled : (r.schedule 8 threeHours).result = .ok s := by cbv
  have scheduled' : (r.schedule 8 fiveHours).result = .ok s' := by cbv
  exact ⟨scheduled, scheduled', schedule_goes_on (Sample.admitted (by decide))
    (Sample.regular (by decide)) (UInt32.le_refl 8) (by decide) scheduled scheduled'⟩

end Request
end UnpaidWork
