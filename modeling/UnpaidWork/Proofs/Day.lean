import UnpaidWork.Proofs.Admission

/-!
What one working day does to a simulation. Granting adds appointments and takes
from the remaining time exactly what they last; keeping bookings takes their
whole time. `Passes` lists the three things that can happen on a day that does
not end the simulation, and `visit_eq_ok` says that nothing else can.
-/
namespace UnpaidWork

namespace Progress
variable {day : Date} {usable rest : List Allocation} {a : Allocation} {p q : Progress}
variable {bookings : List ExistingAppointment}

theorem grant_cons (granted : (grant day (a :: rest) p).result = .ok q) :
    (p.remaining.nanos ≤ 0 ∧ q = p) ∨
      (0 < p.remaining.nanos ∧ ∃ left : Duration,
        left.nanos = p.remaining.nanos - (p.remaining.min a.duration).nanos ∧
        (grant day rest ⟨left, p.required ++ [appointmentOf day a (p.remaining.min a.duration)],
          p.forced⟩).result = .ok q) := by
  rw [grant] at granted
  split at granted
  · rename_i nothing
    cases granted
    exact .inl ⟨nothing, rfl⟩
  · rename_i something
    simp only [Traced.result_bind, Traced.result_tell, Traced.result_attempt, bind_eq_ok] at granted
    obtain ⟨_, -, left, subtracted, later⟩ := granted
    rw [Duration.le_iff, Duration.nanos_zero] at something
    exact .inr ⟨by omega, left, Duration.minus_eq_ok.mp subtracted, later⟩

/-- Granting adds appointments of the day at the end and keeps no booking. -/
theorem grant_appends (granted : (grant day usable p).result = .ok q) :
    q.forced = p.forced ∧ ∃ given, q.required = p.required ++ given ∧
      ∀ r ∈ given, ∃ a ∈ usable, ∃ length, r = appointmentOf day a length := by
  induction usable generalizing p with
  | nil =>
    cases granted
    exact ⟨rfl, [], by simp, by simp⟩
  | cons a rest ih =>
    rcases grant_cons granted with ⟨-, rfl⟩ | ⟨-, left, -, later⟩
    · exact ⟨rfl, [], by simp, by simp⟩
    · obtain ⟨forced, given, required, origin⟩ := ih later
      refine ⟨forced, _ :: given, by rw [required, List.append_assoc, List.singleton_append], ?_⟩
      intro r member
      rcases List.mem_cons.mp member with rfl | inRest
      · exact ⟨a, by simp, _, rfl⟩
      · obtain ⟨b, usable, length, rfl⟩ := origin r inRest
        exact ⟨b, by simp [usable], length, rfl⟩

/-- The time that a day grants: appointments of that day which each take some
time, and together exactly what the remaining time falls by. -/
structure Grants (day : Date) (usable : List Allocation) (p q : Progress)
    (given : List RequiredAppointment) : Prop where
  required : q.required = p.required ++ given
  forced : q.forced = p.forced
  dated : ∀ r ∈ given, r.date = day
  positive : ∀ r ∈ given, 0 < r.duration.nanos
  balance : timeOf RequiredAppointment.duration given + q.remaining.nanos = p.remaining.nanos
  remaining : q.remaining.nanos = max 0 (p.remaining.nanos - timeOf Allocation.duration usable)

theorem grant_grants (divisible : ∀ a ∈ usable, a.Divisible) (remains : 0 ≤ p.remaining.nanos)
    (granted : (grant day usable p).result = .ok q) : ∃ given, Grants day usable p q given := by
  induction usable generalizing p with
  | nil =>
    cases granted
    exact ⟨[], by simp, rfl, by simp, by simp, by simp, by rw [timeOf_nil]; omega⟩
  | cons a rest ih =>
    have slot := divisible a (by simp)
    have slots : ∀ b ∈ rest, b.Divisible := fun b member => divisible b (by simp [member])
    have others : 0 ≤ timeOf Allocation.duration rest :=
      timeOf_nonneg fun b member => Int.le_of_lt (slots b member).positive
    rcases grant_cons granted with ⟨nothing, rfl⟩ | ⟨something, left, subtracted, later⟩
    · refine ⟨[], by simp, rfl, by simp, by simp, by simp, ?_⟩
      have := slot.positive
      rw [timeOf_cons]
      omega
    · have shorter := Duration.nanos_min p.remaining a.duration
      have length : (appointmentOf day a (p.remaining.min a.duration)).duration =
          p.remaining.min a.duration := by
        apply slot.cut
        · have := slot.positive
          omega
        · rw [Duration.le_iff]
          omega
      have := slot.positive
      obtain ⟨given, required, forced, dated, positive, balance, remaining⟩ :=
        ih slots (by dsimp only; omega) later
      dsimp only at required balance remaining
      refine ⟨_ :: given, by rw [required, List.append_assoc, List.singleton_append], forced, ?_,
        ?_, ?_, ?_⟩
      · intro r member
        rcases List.mem_cons.mp member with rfl | inRest
        · rfl
        · exact dated r inRest
      · intro r member
        rcases List.mem_cons.mp member with rfl | inRest
        · rw [length]
          omega
        · exact positive r inRest
      · rw [timeOf_cons, length]
        omega
      · rw [timeOf_cons]
        omega

/-- Something is granted as soon as something remains and can be used. -/
theorem Grants.nonempty {given : List RequiredAppointment} (granted : Grants day usable p q given)
    (divisible : ∀ a ∈ usable, a.Divisible) (someUsable : usable ≠ [])
    (remains : 0 < p.remaining.nanos) : given ≠ [] := by
  rintro rfl
  obtain ⟨a, rest, rfl⟩ := List.exists_cons_of_ne_nil someUsable
  have first := (divisible a (by simp)).positive
  have others : 0 ≤ timeOf Allocation.duration rest :=
    timeOf_nonneg fun b member => Int.le_of_lt (divisible b (by simp [member])).positive
  have balance := granted.balance
  have remaining := granted.remaining
  simp only [timeOf_cons, timeOf_nil] at balance remaining
  omega

/-- Keeping bookings adds them all and takes their whole time, whatever remains. -/
theorem keepBooked_appends (kept : (keepBooked day bookings p).result = .ok q) :
    q.remaining.nanos = p.remaining.nanos - timeOf ExistingAppointment.duration bookings ∧
      q.required = p.required ∧ q.forced = p.forced ++ bookings := by
  induction bookings generalizing p with
  | nil =>
    cases kept
    simp
  | cons b rest ih =>
    simp only [keepBooked, Traced.result_bind, Traced.result_tell, Traced.result_attempt,
      bind_eq_ok] at kept
    obtain ⟨_, -, left, subtracted, later⟩ := kept
    obtain ⟨remaining, required, forced⟩ := ih later
    have taken := Duration.minus_eq_ok.mp subtracted
    refine ⟨?_, required, by rw [forced, List.append_assoc, List.singleton_append]⟩
    rw [timeOf_cons, remaining, taken]
    omega

/-- Bookings can be kept as long as what remains after them is within the limit. -/
theorem keepBooked_of_remaining (proper : ∀ b ∈ bookings, 0 ≤ b.duration.nanos) {left : Duration}
    (remaining : left.nanos = p.remaining.nanos - timeOf ExistingAppointment.duration bookings) :
    (keepBooked day bookings p).result = .ok ⟨left, p.required, p.forced ++ bookings⟩ := by
  induction bookings generalizing p with
  | nil =>
    have same : left = p.remaining := Duration.ext (by simpa using remaining)
    simp [keepBooked, same]
  | cons b rest ih =>
    have head : 0 ≤ b.duration.nanos := proper b (by simp)
    have properRest : ∀ c ∈ rest, 0 ≤ c.duration.nanos := fun c member =>
      proper c (by simp [member])
    have tail : 0 ≤ timeOf ExistingAppointment.duration rest := timeOf_nonneg properRest
    rw [timeOf_cons] at remaining
    -- What remains after one booking lies between what remains before and after all of them.
    have within : -Duration.limit ≤ p.remaining.nanos - b.duration.nanos ∧
        p.remaining.nanos - b.duration.nanos ≤ Duration.limit := by
      have := p.remaining.bounded
      have := left.bounded
      omega
    have subtracted : p.remaining.minus b.duration =
        .ok ⟨p.remaining.nanos - b.duration.nanos, within⟩ := Duration.minus_eq_ok.mpr rfl
    have later := ih (p := ⟨⟨_, within⟩, p.required, p.forced ++ [b]⟩) properRest
      (by dsimp only; omega)
    simp only [keepBooked, Traced.result_bind, Traced.result_tell, Traced.result_attempt]
    refine bind_eq_ok.mpr ⟨(), rfl, bind_eq_ok.mpr ⟨_, subtracted, ?_⟩⟩
    simpa using later

end Progress

namespace Simulation

/-- The simulation does not end on this day: something remains, the horizon is
not passed, and some allocation can still be used. -/
structure GoesOn (sim : Simulation) (day : Date) (p : Progress) : Prop where
  remains : 0 < p.remaining.nanos
  inHorizon : sim.request.today.daysTo day ≤ sim.maxHorizonDays.toNat
  possible : ∃ a ∈ sim.allocations, (a.nextPossibleDate? day p.schedule).isSome

/-- What a day on which the simulation goes on makes of it: nothing when no
allocation can be used, else its bookings are kept, or else it grants. -/
inductive Passes (sim : Simulation) (day : Date) (p : Progress) : Progress → Prop
  | idle (unusable : sim.applicable day p = []) : Passes sim day p p
  | keeps {q : Progress} (usable : sim.applicable day p ≠ []) (bookings : sim.booked day ≠ [])
      (kept : (Progress.keepBooked day (sim.booked day) p).result = .ok q) : Passes sim day p q
  | grants {q : Progress} (usable : sim.applicable day p ≠ []) (free : sim.booked day = [])
      (granted : (Progress.grant day (sim.applicable day p) p).result = .ok q) : Passes sim day p q

variable {sim : Simulation} {day : Date} {p q : Progress} {v : Visit}

theorem goesOn_iff : sim.GoesOn day p ↔ ¬ p.remaining ≤ .zero ∧
    ¬ (sim.maxHorizonDays.toNat : Int) < sim.request.today.daysTo day ∧
    ∃ a ∈ sim.allocations, (a.nextPossibleDate? day p.schedule).isSome := by
  rw [Duration.le_iff, Duration.nanos_zero]
  constructor
  · rintro ⟨remains, inHorizon, possible⟩
    exact ⟨by omega, by omega, possible⟩
  · rintro ⟨remains, inHorizon, possible⟩
    exact ⟨by omega, by omega, possible⟩

theorem visit_of_not_goesOn (ended : ¬ sim.GoesOn day p) :
    (sim.visit day p).result = .ok .finished := by
  unfold visit
  split
  · rfl
  · rename_i remains
    split
    · rfl
    · rename_i inHorizon
      have impossible : sim.allocations.any
          (fun a => (a.nextPossibleDate? day p.schedule).isSome) = false := by
        rw [Bool.eq_false_iff]
        intro possible
        exact ended (goesOn_iff.mpr ⟨remains, inHorizon, List.any_eq_true.mp possible⟩)
      rw [impossible]
      rfl

theorem visit_of_goesOn (goesOn : sim.GoesOn day p) :
    (sim.visit day p).result = .ok v ↔ ∃ q, sim.Passes day p q ∧ v = .onward q := by
  obtain ⟨remains, inHorizon, possible⟩ := goesOn_iff.mp goesOn
  have possible := List.any_eq_true.mpr possible
  simp only [visit, remains, inHorizon, possible, if_false, Bool.not_true, Bool.false_eq_true]
  split
  · rename_i unusable
    constructor
    · rintro ⟨⟩
      exact ⟨p, .idle unusable, rfl⟩
    · rintro ⟨q, passed, rfl⟩
      cases passed with
      | idle => rfl
      | keeps usable => exact absurd unusable usable
      | grants usable => exact absurd unusable usable
  · rename_i usable
    split
    · rename_i free
      rw [Traced.result_map, map_eq_ok]
      constructor
      · rintro ⟨q, granted, rfl⟩
        exact ⟨q, .grants usable free granted, rfl⟩
      · rintro ⟨q, passed, rfl⟩
        cases passed with
        | idle unusable => exact absurd unusable usable
        | keeps _ bookings => exact absurd free bookings
        | grants _ _ granted => exact ⟨q, granted, rfl⟩
    · rename_i bookings
      rw [Traced.result_map, map_eq_ok]
      constructor
      · rintro ⟨q, kept, rfl⟩
        exact ⟨q, .keeps usable bookings kept, rfl⟩
      · rintro ⟨q, passed, rfl⟩
        cases passed with
        | idle unusable => exact absurd unusable usable
        | keeps _ _ kept => exact ⟨q, kept, rfl⟩
        | grants _ free => exact absurd free bookings

/-- What one day makes of two simulations that do the same kind of thing on it. -/
inductive Alongside (sim sim' : Simulation) (day : Date) (p p' : Progress) :
    Progress → Progress → Prop
  | idle : Alongside sim sim' day p p' p p'
  | keeps {q q' : Progress} (kept : (Progress.keepBooked day (sim.booked day) p).result = .ok q)
      (kept' : (Progress.keepBooked day (sim'.booked day) p').result = .ok q') :
      Alongside sim sim' day p p' q q'
  | grants {q q' : Progress}
      (granted : (Progress.grant day (sim.applicable day p) p).result = .ok q)
      (granted' : (Progress.grant day (sim.applicable day p) p').result = .ok q') :
      Alongside sim sim' day p p' q q'

/-- Simulations that can use the same allocations on a day, and both have
bookings on it or both have none, do the same kind of thing. -/
theorem Passes.alongside {sim' : Simulation} {p' q' : Progress}
    (applicable : sim'.applicable day p' = sim.applicable day p)
    (booked : sim'.booked day = [] ↔ sim.booked day = []) (passed : sim.Passes day p q)
    (passed' : sim'.Passes day p' q') : Alongside sim sim' day p p' q q' := by
  cases passed with
  | idle unusable =>
    cases passed' with
    | idle => exact .idle
    | keeps usable => exact absurd (applicable.trans unusable) usable
    | grants usable => exact absurd (applicable.trans unusable) usable
  | keeps usable bookings kept =>
    cases passed' with
    | idle unusable => exact absurd (applicable.symm.trans unusable) usable
    | keeps _ _ kept' => exact .keeps kept kept'
    | grants _ free => exact absurd (booked.mp free) bookings
  | grants usable free granted =>
    cases passed' with
    | idle unusable => exact absurd (applicable.symm.trans unusable) usable
    | keeps _ bookings => exact absurd (booked.mpr free) bookings
    | grants _ _ granted' => exact .grants granted (applicable ▸ granted')

end Simulation
end UnpaidWork
