import UnpaidWork.Proofs.Overbooking
import UnpaidWork.Proofs.WorkingDays

/-!
A walk seen from a later day. Up to that day it adds appointments dated before
it, and from there on it is a walk of its own. If no allocation is to be used
once, this rest does not depend on what was scheduled before, and a simulation
that starts on the later day with the same time left goes through the same
steps; its horizon only lies further ahead.
-/
namespace UnpaidWork

/-- The progress `p` with what was scheduled before in front of it. -/
def Progress.after (before p : Progress) : Progress :=
  ⟨p.remaining, before.required ++ p.required, before.forced ++ p.forced⟩

namespace Progress
variable {day : Date} {before p q : Progress}

theorem after_start (before : Progress) : before.after ⟨before.remaining, [], []⟩ = before := by
  simp [after]

/-- What was scheduled before does not change what a day grants. -/
theorem grant_after (usable : List Allocation) :
    (grant day usable (before.after p)).result = (grant day usable p).result.map before.after := by
  induction usable generalizing p with
  | nil => rfl
  | cons a rest ih =>
    have same : (before.after p).remaining = p.remaining := rfl
    rw [grant, grant, same]
    split
    · rfl
    · simp only [Traced.result_bind, Traced.result_tell, Traced.result_attempt, Except.bind]
      cases p.remaining.minus (p.remaining.min a.duration) with
      | error cause => rfl
      | ok left =>
        dsimp only
        rw [← ih]
        simp [after, List.append_assoc]

/-- Nor does it change what bookings take. -/
theorem keepBooked_after (bookings : List ExistingAppointment) :
    (keepBooked day bookings (before.after p)).result =
      (keepBooked day bookings p).result.map before.after := by
  induction bookings generalizing p with
  | nil => rfl
  | cons b rest ih =>
    have same : (before.after p).remaining = p.remaining := rfl
    rw [keepBooked, keepBooked, same]
    simp only [Traced.result_bind, Traced.result_tell, Traced.result_attempt, Except.bind]
    cases p.remaining.minus b.duration with
    | error cause => rfl
    | ok left =>
      dsimp only
      rw [← ih]
      simp [after, List.append_assoc]

end Progress

/-- The same request on another day. -/
def Request.onDay (r : Request) (today : Date) : Request := { r with today := today }

namespace Simulation

/-- The same simulation for another day on which it is run. -/
def onDay (sim : Simulation) (today : Date) : Simulation :=
  { sim with request := sim.request.onDay today }

variable {sim : Simulation} {start : Option Date} {day d today : Date}
variable {before p q final : Progress}

theorem applicable_eq_of_recurring (recurring : ∀ a ∈ sim.allocations, a.frequency ≠ .once)
    (p q : Progress) : sim.applicable day p = sim.applicable day q := by
  refine List.filter_congr fun a member => ?_
  have same : a.nextPossibleDate? day p.schedule = a.nextPossibleDate? day q.schedule :=
    Allocation.nextPossibleDate?_congr day fun once => absurd once (recurring a member)
  simp only [Allocation.isPossibleOn, same]

/-- A simulation that is run later still goes on where the earlier one did. -/
theorem GoesOn.onDay (recurring : ∀ a ∈ sim.allocations, a.frequency ≠ .once)
    (later : sim.request.today ≤ today) (goesOn : sim.GoesOn day (before.after p)) :
    (sim.onDay today).GoesOn day p := by
  have alike : sim.Alike (before.after p) p := alike_of_recurring recurring
  obtain ⟨remains, inHorizon, possible⟩ := alike.goesOn goesOn goesOn.remains
  refine ⟨remains, ?_, possible⟩
  simp only [Date.daysTo, Simulation.onDay, Request.onDay, Date.le_iff] at later inHorizon ⊢
  omega

/-- A day does the same to what is scheduled from it on, whatever came before. -/
theorem Passes.onDay (recurring : ∀ a ∈ sim.allocations, a.frequency ≠ .once)
    (passed : sim.Passes day (before.after p) q) :
    ∃ q', q = before.after q' ∧ (sim.onDay today).Passes day p q' := by
  have applicable : sim.applicable day (before.after p) = (sim.onDay today).applicable day p :=
    applicable_eq_of_recurring recurring _ _
  cases passed with
  | idle unusable => exact ⟨p, rfl, .idle (applicable ▸ unusable)⟩
  | keeps usable bookings kept =>
    rw [Progress.keepBooked_after, map_eq_ok] at kept
    obtain ⟨q', kept, rfl⟩ := kept
    exact ⟨q', rfl, .keeps (applicable ▸ usable) bookings kept⟩
  | grants usable free granted =>
    rw [Progress.grant_after, map_eq_ok, applicable] at granted
    obtain ⟨q', granted, rfl⟩ := granted
    exact ⟨q', rfl, .grants (applicable ▸ usable) free granted⟩

/-- The rest of a walk that leaves nothing open is also the walk of a simulation
that is run on a later day and has only this rest to schedule. -/
theorem Reaches.onDay (recurring : ∀ a ∈ sim.allocations, a.frequency ≠ .once)
    (later : sim.request.today ≤ today) (reached : sim.Reaches start (before.after p) final)
    (done : final.remaining.nanos ≤ 0) :
    ∃ final', final = before.after final' ∧ (sim.onDay today).Reaches start p final' := by
  generalize from_ : before.after p = q at reached
  induction reached generalizing p with
  | calendarEnds => exact ⟨p, from_.symm, .calendarEnds⟩
  | stops =>
    subst from_
    exact ⟨p, rfl, .stops fun goesOn => Int.not_lt.mpr done goesOn.remains⟩
  | passes goesOn passed _ ih =>
    subst from_
    obtain ⟨q', rfl, passed'⟩ := passed.onDay recurring
    obtain ⟨final', rfl, rest⟩ := ih done rfl
    exact ⟨final', rfl, .passes (goesOn.onDay recurring later) passed' rest⟩

/-- A walk up to a day. What it has scheduled by then is dated before the day,
and it ended before, or goes on from the first working day from this day on. -/
theorem Reaches.until (reached : sim.Reaches start p final)
    (from_ : start = sim.request.nonWorkingDates.workingDayOnOrAfter? d) (order : d ≤ today) :
    ∃ m given kept, m.required = p.required ++ given ∧ m.forced = p.forced ++ kept ∧
      (∀ q ∈ given, q.date < today) ∧ (∀ b ∈ kept, b.date < today) ∧
      (m = final ∨
        sim.Reaches (sim.request.nonWorkingDates.workingDayOnOrAfter? today) m final) := by
  induction reached generalizing d with
  | @calendarEnds p => exact ⟨p, [], [], by simp, by simp, by simp, by simp, .inl rfl⟩
  | @stops day p => exact ⟨p, [], [], by simp, by simp, by simp, by simp, .inl rfl⟩
  | @passes day p q final goesOn passed rest ih =>
    by_cases there : today ≤ day
    · have search := NonWorkingDates.workingDayOnOrAfter?_of_le from_.symm order there
      exact ⟨p, [], [], by simp, by simp, by simp, by simp,
        .inr (search ▸ .passes goesOn passed rest)⟩
    · have there := Date.not_le.mp there
      obtain ⟨given, kept, required, forced, dated, booked⟩ := passed.adds
      cases after : day.next? with
      | none => exact absurd (Date.le_of_next?_eq_none after today) (Date.not_le.mpr there)
      | some next =>
        have step : sim.dayAfter day = sim.request.nonWorkingDates.workingDayOnOrAfter? next := by
          rw [dayAfter, NonWorkingDates.nextWorkingDay?, after]
          rfl
        obtain ⟨m, more, keptMore, requiredMore, forcedMore, datedMore, bookedMore, ends⟩ :=
          ih step ((Date.next?_le_iff after).mpr there)
        refine ⟨m, given ++ more, kept ++ keptMore, ?_, ?_, ?_, ?_, ends⟩
        · rw [requiredMore, required, List.append_assoc]
        · rw [forcedMore, forced, List.append_assoc]
        · intro q member
          rcases List.mem_append.mp member with now | later
          · rwa [dated q now]
          · exact datedMore q later
        · intro b member
          rcases List.mem_append.mp member with now | later
          · rwa [(mem_booked (booked.subset now)).2.2]
          · exact bookedMore b later

/-- What a walk adds lies on or after every date that its first day is not before. -/
theorem Adds.coming_from {given : List RequiredAppointment} {kept : List ExistingAppointment}
    (adds : sim.Adds start p q given kept) (first : ∀ day, start = some day → today ≤ day) :
    (∀ r ∈ given, today ≤ r.date) ∧ ∀ b ∈ kept, today ≤ b.date := by
  constructor
  · intro r member
    obtain ⟨day, found, order⟩ := adds.dated r member
    exact Date.le_trans (first day found) order
  · intro b member
    rcases adds.coming with rfl | ⟨day, found, coming⟩
    · cases member
    · have chosen := (List.mem_filter.mp (coming.subset member)).2
      simp only [Bool.and_eq_true, decide_eq_true_eq] at chosen
      exact Date.le_trans (first day found) chosen.2

/-- A walk cut at a day: one part schedules all that is dated before the day, and
the other, unless the walk ended before, is the walk from this day on. -/
theorem Reaches.cut {remaining : Duration} (reached : sim.Reaches start ⟨remaining, [], []⟩ final)
    (from_ : start = sim.request.nonWorkingDates.workingDayOnOrAfter? d) (order : d ≤ today) :
    ∃ m : Progress, m.required = final.required.filter (fun q => q.date < today) ∧
      m.forced = final.forced.filter (fun b => b.date < today) ∧
      (m = final ∨
        sim.Reaches (sim.request.nonWorkingDates.workingDayOnOrAfter? today) m final) := by
  obtain ⟨m, given, kept, required, forced, dated, booked, ends⟩ := reached.until from_ order
  have requiredBefore : given.filter (fun q => q.date < today) = given :=
    List.filter_eq_self.mpr fun q member => by simp [dated q member]
  have keptBefore : kept.filter (fun b => b.date < today) = kept :=
    List.filter_eq_self.mpr fun b member => by simp [booked b member]
  rw [List.nil_append] at required forced
  rcases ends with rfl | rest
  · exact ⟨m, by rw [required, requiredBefore], by rw [forced, keptBefore], .inl rfl⟩
  · obtain ⟨more, keptMore, adds⟩ := rest.adds
    obtain ⟨datedMore, bookedMore⟩ := adds.coming_from fun day search =>
      NonWorkingDates.le_workingDayOnOrAfter search
    have requiredAfter : more.filter (fun q => q.date < today) = [] :=
      List.filter_eq_nil_iff.mpr fun q member => by simp [Date.not_lt, datedMore q member]
    have keptAfter : keptMore.filter (fun b => b.date < today) = [] :=
      List.filter_eq_nil_iff.mpr fun b member => by simp [Date.not_lt, bookedMore b member]
    refine ⟨m, ?_, ?_, .inr rest⟩
    · rw [adds.required, required, List.filter_append, requiredBefore, requiredAfter,
        List.append_nil]
    · rw [adds.forced, forced, List.filter_append, keptBefore, keptAfter, List.append_nil]

end Simulation
end UnpaidWork
