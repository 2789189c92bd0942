import Mathlib.Data.List.Perm.Subperm
import UnpaidWork.Proofs.Day

/-!
The walk through the working days as a relation. `Reaches` chains the days on
which the simulation goes on, and `walk_eq_ok` says that the walk computes
exactly this chain. What a walk adds to a schedule lies on the days from which
it started on, and every booking that it keeps is one of those still to come,
kept once.
-/
namespace UnpaidWork

/-- Two tests that never accept the same item, and only items that a third one
accepts, select parts of its selection that do not overlap. -/
theorem filter_append_subperm {α : Type} {first second whole : α → Bool} (items : List α)
    (apart : ∀ item, first item → second item = false) (within : ∀ item, first item → whole item)
    (also : ∀ item, second item → whole item) :
    (items.filter first ++ items.filter second).Subperm (items.filter whole) := by
  have left : (items.filter whole).filter first = items.filter first := by
    rw [List.filter_filter]
    exact List.filter_congr fun item _ => by
      cases accepted : first item
      · rfl
      · simp [within item accepted]
  have right : (items.filter second).Sublist
      ((items.filter whole).filter fun item => !first item) := by
    rw [List.filter_filter]
    refine List.monotone_filter_right items fun item accepted => ?_
    cases chosen : first item
    · simp [also item accepted]
    · rw [apart item chosen] at accepted
      cases accepted
  refine List.Subperm.trans ?_ (List.filter_append_perm first (items.filter whole)).subperm
  rw [left]
  exact ((List.Sublist.refl _).append right).subperm

namespace NonWorkingDates
variable {s : NonWorkingDates} {d found : Date}

theorem le_workingDayOnOrAfter (reached : s.workingDayOnOrAfter? d = some found) : d ≤ found :=
  le_firstFree reached

theorem lt_nextWorkingDay (step : s.nextWorkingDay? d = some found) : d < found := by
  obtain ⟨next, after, free⟩ := Option.bind_eq_some_iff.mp step
  have number := Date.next?_eq_some.mp after
  have later := le_firstFree free
  simp only [Date.lt_iff, Date.le_iff] at *
  omega

end NonWorkingDates

namespace Simulation

/-- The working day after a day, by the calendar of the simulation. -/
def dayAfter (sim : Simulation) (day : Date) : Option Date :=
  sim.request.nonWorkingDates.nextWorkingDay? day

/-- Every date from the working day after a day on is later than this day. -/
theorem lt_of_dayAfter_le {sim : Simulation} {day next d : Date}
    (step : sim.dayAfter day = some next) (order : next ≤ d) : day < d := by
  have after := NonWorkingDates.lt_nextWorkingDay step
  rw [Date.le_iff, Date.lt_iff] at *
  omega

/-- After each day fewer days are left. -/
theorem daysLeft_dayAfter_lt (sim : Simulation) (day : Date) :
    daysLeft (sim.dayAfter day) < daysLeft (some day) := by
  cases step : sim.dayAfter day with
  | none => simp [daysLeft]
  | some next =>
    have := NonWorkingDates.following_nextWorkingDay_lt step
    simp only [daysLeft]
    omega

/-- The walk from a day, if the calendar still has it, ends with `final`. -/
inductive Reaches (sim : Simulation) : Option Date → Progress → Progress → Prop
  | calendarEnds {p : Progress} : Reaches sim none p p
  | stops {day : Date} {p : Progress} (ended : ¬ sim.GoesOn day p) : Reaches sim (some day) p p
  | passes {day : Date} {p q final : Progress} (goesOn : sim.GoesOn day p)
      (passed : sim.Passes day p q) (rest : Reaches sim (sim.dayAfter day) q final) :
      Reaches sim (some day) p final

variable {sim : Simulation} {start : Option Date} {day : Date} {p q final : Progress}

/-- The walk computes the relation; what was told before does not matter. -/
theorem walk_eq_ok {told : List Event} :
    (sim.walk start p told).result = .ok final ↔ sim.Reaches start p final := by
  induction start, p, told using walk.induct sim with
  | case1 p told =>
    rw [walk]
    constructor
    · rintro ⟨⟩
      exact .calendarEnds
    · rintro ⟨⟩
      rfl
  | case2 p told day events cause visited =>
    rw [walk, visited]
    have failed := congrArg Traced.result visited
    constructor
    · rintro ⟨⟩
    · intro reached
      cases reached with
      | stops ended =>
        rw [visit_of_not_goesOn ended] at failed
        cases failed
      | passes goesOn passed rest =>
        rw [(visit_of_goesOn goesOn).mpr ⟨_, passed, rfl⟩] at failed
        cases failed
  | case3 p told day events visited =>
    rw [walk, visited]
    have finished := congrArg Traced.result visited
    constructor
    · rintro ⟨⟩
      refine .stops fun goesOn => ?_
      obtain ⟨q, -, different⟩ := (visit_of_goesOn goesOn).mp finished
      cases different
    · intro reached
      cases reached with
      | stops => rfl
      | passes goesOn passed rest =>
        rw [(visit_of_goesOn goesOn).mpr ⟨_, passed, rfl⟩] at finished
        cases finished
  | case4 p told day events q visited ih =>
    rw [walk, visited]
    have onward := congrArg Traced.result visited
    rw [ih]
    constructor
    · intro rest
      by_cases goesOn : sim.GoesOn day p
      · obtain ⟨other, passed, same⟩ := (visit_of_goesOn goesOn).mp onward
        cases same
        exact .passes goesOn passed rest
      · rw [visit_of_not_goesOn goesOn] at onward
        cases onward
    · intro reached
      cases reached with
      | stops ended =>
        rw [visit_of_not_goesOn ended] at onward
        cases onward
      | passes goesOn passed rest =>
        rw [(visit_of_goesOn goesOn).mpr ⟨_, passed, rfl⟩] at onward
        cases onward
        exact rest

/-! What a walk adds -/

/-- The bookings without an outcome from a day on. -/
def comingFrom (sim : Simulation) (day : Date) : List ExistingAppointment :=
  sim.request.existingAppointments.filter fun b => b.isUnresolved && day ≤ b.date

/-- After a change of an appointment, every booking of a day is kept. -/
theorem booked_perm (changed : sim.request.trigger.isAppointmentChange) : (sim.booked day).Perm
    (sim.request.existingAppointments.filter fun b => b.isUnresolved && b.date = day) := by
  rw [booked, if_pos changed]
  exact List.mergeSort_perm _ _

theorem booked_subperm : (sim.booked day).Subperm
    (sim.request.existingAppointments.filter fun b => b.isUnresolved && b.date = day) := by
  by_cases changed : sim.request.trigger.isAppointmentChange
  · exact (booked_perm changed).subperm
  · rw [booked, if_neg changed]
    exact List.nil_subperm

theorem mem_booked {b : ExistingAppointment} (member : b ∈ sim.booked day) :
    b ∈ sim.request.existingAppointments ∧ b.isUnresolved ∧ b.date = day := by
  have selected := booked_subperm.subset member
  simpa using selected

theorem booked_append_comingFrom_subperm {later : Date} (order : day < later) :
    (sim.booked day ++ sim.comingFrom later).Subperm (sim.comingFrom day) := by
  refine (booked_subperm.append (List.Subperm.refl _)).trans ?_
  refine filter_append_subperm _ ?_ ?_ ?_
  · intro b chosen
    simp only [Bool.and_eq_true, decide_eq_true_eq] at chosen
    simp only [chosen.1, chosen.2, Bool.true_and, decide_eq_false_iff_not, Date.le_iff]
    rw [Date.lt_iff] at order
    omega
  · intro b chosen
    simp only [Bool.and_eq_true, decide_eq_true_eq] at chosen
    simp [chosen.1, chosen.2, Date.le_iff]
  · intro b chosen
    simp only [Bool.and_eq_true, decide_eq_true_eq, Date.le_iff, Date.lt_iff] at chosen order ⊢
    exact ⟨chosen.1, by omega⟩

/-- What a walk from a day adds: appointments on that day or later, and some of
the bookings that are still to come, each of them once. -/
structure Adds (sim : Simulation) (start : Option Date) (p q : Progress)
    (given : List RequiredAppointment) (kept : List ExistingAppointment) : Prop where
  required : q.required = p.required ++ given
  forced : q.forced = p.forced ++ kept
  dated : ∀ r ∈ given, ∃ day, start = some day ∧ day ≤ r.date
  coming : kept = [] ∨ ∃ day, start = some day ∧ kept.Subperm (sim.comingFrom day)

/-- A day adds appointments of its own date, or else its bookings. -/
theorem Passes.adds (passed : sim.Passes day p q) : ∃ given kept,
    q.required = p.required ++ given ∧ q.forced = p.forced ++ kept ∧
      (∀ r ∈ given, r.date = day) ∧ kept.Subperm (sim.booked day) := by
  cases passed with
  | idle => exact ⟨[], [], by simp, by simp, by simp, List.nil_subperm⟩
  | keeps _ _ kept =>
    obtain ⟨-, required, forced⟩ := Progress.keepBooked_appends kept
    exact ⟨[], sim.booked day, by simp [required], forced, by simp, List.Subperm.refl _⟩
  | grants _ _ granted =>
    obtain ⟨forced, given, required, origin⟩ := Progress.grant_appends granted
    refine ⟨given, [], required, by simp [forced], ?_, List.nil_subperm⟩
    intro r member
    obtain ⟨a, -, length, rfl⟩ := origin r member
    rfl

theorem Reaches.adds (reached : sim.Reaches start p final) :
    ∃ given kept, sim.Adds start p final given kept := by
  induction reached with
  | calendarEnds => exact ⟨[], [], by simp, by simp, by simp, .inl rfl⟩
  | stops => exact ⟨[], [], by simp, by simp, by simp, .inl rfl⟩
  | @passes day p q final goesOn passed rest ih =>
    obtain ⟨given, kept, required, forced, dated, coming⟩ := passed.adds
    obtain ⟨givenLater, keptLater, later⟩ := ih
    refine ⟨given ++ givenLater, kept ++ keptLater, ?_, ?_, ?_, .inr ⟨day, rfl, ?_⟩⟩
    · rw [later.required, required, List.append_assoc]
    · rw [later.forced, forced, List.append_assoc]
    · intro r member
      refine ⟨day, rfl, ?_⟩
      rcases List.mem_append.mp member with today | after
      · simp [dated r today, Date.le_iff]
      · obtain ⟨next, step, order⟩ := later.dated r after
        exact Int.le_of_lt (lt_of_dayAfter_le step order)
    · rcases later.coming with rfl | ⟨next, step, coming'⟩
      · rw [List.append_nil]
        refine coming.trans (booked_subperm.trans (List.Sublist.subperm ?_))
        refine List.monotone_filter_right _ fun b chosen => ?_
        simp only [Bool.and_eq_true, decide_eq_true_eq] at chosen
        simp [chosen.1, chosen.2, Date.le_iff]
      · have order : day < next := NonWorkingDates.lt_nextWorkingDay step
        exact (coming.append coming').trans (booked_append_comingFrom_subperm order)

end Simulation

/-- The simulation of a request, with its allocations in the order of their slots. -/
def Request.simulation (r : Request) (maxHorizonDays : UInt32) : Simulation :=
  ⟨r, sortAllocations r.allocations, maxHorizonDays⟩

/-- The first working day from today on. -/
def Request.firstDay (r : Request) : Option Date := r.nonWorkingDates.workingDayOnOrAfter? r.today

namespace Request
variable {r : Request} {h : UInt32} {remaining : Duration} {s : Schedule}

/-- A schedule is what the walk from the first working day ends with. -/
theorem schedule_eq_ok : (r.schedule h remaining).result = .ok s ↔
    ∃ p, (r.simulation h).Reaches r.firstDay ⟨remaining, [], []⟩ p ∧ p.conclude = s := by
  unfold schedule
  rw [Traced.result_bind, bind_eq_ok]
  constructor
  · rintro ⟨p, walked, done⟩
    cases done
    exact ⟨p, Simulation.walk_eq_ok.mp walked, rfl⟩
  · rintro ⟨p, reached, rfl⟩
    exact ⟨p, Simulation.walk_eq_ok.mpr reached, rfl⟩

/-- A schedule lies in the future: its required appointments are dated today or
later, and its forced retentions are coming appointments, each of them once. -/
theorem schedule_coming (scheduled : (r.schedule h remaining).result = .ok s) :
    (∀ q ∈ s.requiredAppointments, r.today ≤ q.date) ∧
      s.forcedRetentions.Subperm r.upcomingUnresolved := by
  obtain ⟨p, reached, rfl⟩ := schedule_eq_ok.mp scheduled
  obtain ⟨given, kept, adds⟩ := reached.adds
  have first : ∀ day, r.firstDay = some day → r.today ≤ day := fun day found =>
    NonWorkingDates.le_workingDayOnOrAfter found
  constructor
  · intro q member
    have required : p.conclude.requiredAppointments = given := by
      simp [Progress.conclude, adds.required]
    rw [required] at member
    obtain ⟨day, found, order⟩ := adds.dated q member
    have := first day found
    rw [Date.le_iff] at *
    omega
  · have forced : p.conclude.forcedRetentions = kept := by simp [Progress.conclude, adds.forced]
    rw [forced]
    rcases adds.coming with rfl | ⟨day, found, coming⟩
    · exact List.nil_subperm
    · refine coming.trans (List.Sublist.subperm ?_)
      refine List.monotone_filter_right _ fun b chosen => ?_
      have := first day found
      simp only [Bool.and_eq_true, decide_eq_true_eq, Date.le_iff] at *
      exact ⟨chosen.1, by omega⟩

theorem mem_simulation_allocations {a : Allocation} :
    a ∈ (r.simulation h).allocations ↔ a ∈ r.allocations :=
  (List.mergeSort_perm _ _).mem_iff

end Request
end UnpaidWork
