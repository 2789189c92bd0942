import Mathlib.Data.List.Nodup
import Mathlib.Data.List.Perm.Subperm
import UnpaidWork.Proofs.Walk
import UnpaidWork.Proofs.WorkingDays

/-!
Which days a simulation visits, and that it comes to an end. A search through
the calendar passes listed dates only, so it takes no more steps than dates are
listed. A walk goes from each working day to the next one, whatever remains
after it; so the days that it has passed and the day that comes next are all the
working days from today to there. It passes a day only within the horizon, so
before one more day than the horizon allows it is over.
-/
namespace UnpaidWork
open Date

/-! Searches through the calendar -/

namespace NonWorkingDates
variable {s : NonWorkingDates} {d e found : Date} {answer : Option Date} {n : Nat}

/-- A search from a date, one date after the other, passes `n` listed dates
before it gives its answer. -/
inductive Searches (s : NonWorkingDates) : Date → Nat → Option Date → Prop
  | ends {d : Date} (working : d ∉ s) : Searches s d 0 (some d)
  | calendarEnds {d : Date} (listed : d ∈ s) (last : d.next? = none) : Searches s d 1 none
  | passes {d next : Date} {n : Nat} {answer : Option Date} (listed : d ∈ s)
      (step : d.next? = some next) (rest : Searches s next n answer) : Searches s d (n + 1) answer

/-- The dates that a search passes lie in a row and are all listed. -/
theorem Searches.listed (search : s.Searches d n answer) :
    ∀ i < n, ∃ e ∈ s.dates, e.number = d.number + i := by
  induction search with
  | ends => exact fun i below => absurd below (Nat.not_lt_zero i)
  | @calendarEnds d listed last =>
    intro i below
    exact ⟨d, listed, by omega⟩
  | @passes d next n answer listed step rest ih =>
    intro i below
    cases i with
    | zero => exact ⟨d, listed, by omega⟩
    | succ i =>
      obtain ⟨e, member, number⟩ := ih i (by omega)
      have after := next?_eq_some.mp step
      exact ⟨e, member, by omega⟩

/-- So a search takes no more steps than dates are listed. -/
theorem Searches.le_length (search : s.Searches d n answer) : n ≤ s.dates.length := by
  have distinct : ((List.range n).map fun i : Nat => d.number + i).Nodup :=
    List.nodup_range.map_on fun i _ j _ same => by omega
  have within : ((List.range n).map fun i : Nat => d.number + i) ⊆ s.dates.map Date.number := by
    intro number member
    obtain ⟨i, below, rfl⟩ := List.mem_map.mp member
    obtain ⟨e, listed, number⟩ := search.listed i (List.mem_range.mp below)
    exact number ▸ List.mem_map_of_mem listed
  simpa using (distinct.subperm within).length_le

/-- There is no working day from a date on when all dates to the last one are listed. -/
theorem workingDayOnOrAfter?_eq_none :
    s.workingDayOnOrAfter? d = none ↔ ∀ e, d ≤ e → e ∈ s := by
  constructor
  · exact fun failed e order => mem_of_firstFree_eq_none failed order
  · intro listed
    cases search : s.workingDayOnOrAfter? d with
    | none => rfl
    | some found =>
      have first := workingDayOnOrAfter?_eq_some.mp search
      exact absurd (listed found first.reached) first.isFit

theorem workingDayOnOrAfter?_of_working (working : d ∉ s) : s.workingDayOnOrAfter? d = some d :=
  workingDayOnOrAfter?_eq_some.mpr ⟨Date.le_refl d, working, fun _ order _ => order⟩

/-- From a listed date the search goes on with the following one. -/
theorem workingDayOnOrAfter?_of_listed (listed : d ∈ s) :
    s.workingDayOnOrAfter? d = s.nextWorkingDay? d := by
  have later (e : Date) (order : d ≤ e) (working : e ∉ s) : d < e :=
    Date.not_le.mp fun back => working (Date.le_antisymm back order ▸ listed)
  rw [nextWorkingDay?]
  cases step : d.next? with
  | none =>
    refine workingDayOnOrAfter?_eq_none.mpr fun e order => ?_
    exact Date.le_antisymm (le_of_next?_eq_none step e) order ▸ listed
  | some next =>
    refine Option.ext fun found => ?_
    rw [Option.bind_some, workingDayOnOrAfter?_eq_some, workingDayOnOrAfter?_eq_some]
    refine FirstFrom.congr fun e => ?_
    rw [next?_le_iff step]
    constructor
    · rintro ⟨order, working⟩
      exact ⟨later e order working, working⟩
    · rintro ⟨order, working⟩
      exact ⟨Int.le_of_lt order, working⟩

/-- The search through the list is the search one date after the other. -/
theorem searches_workingDayOnOrAfter? (s : NonWorkingDates) (d : Date) :
    ∃ n, s.Searches d n (s.workingDayOnOrAfter? d) := by
  -- After each date fewer dates follow.
  induction left : d.following using Nat.strongRecOn generalizing d with
  | ind left ih =>
    by_cases listed : d ∈ s
    · rw [workingDayOnOrAfter?_of_listed listed, nextWorkingDay?]
      cases step : d.next? with
      | none => exact ⟨1, .calendarEnds listed step⟩
      | some next =>
        obtain ⟨n, rest⟩ := ih _ (left ▸ following_next_lt step) next rfl
        exact ⟨n + 1, .passes listed step rest⟩
    · rw [workingDayOnOrAfter?_of_working listed]
      exact ⟨0, .ends listed⟩

/-- The next working day is the least one that is later. -/
theorem nextWorkingDay?_eq_some_iff : s.nextWorkingDay? d = some found ↔
    FirstFrom (fun e => d < e ∧ e ∉ s) d found := by
  have same {next : Date} (step : d.next? = some next) :
      FirstFrom (· ∉ s) next found ↔ FirstFrom (fun e => d < e ∧ e ∉ s) d found := by
    refine FirstFrom.congr fun e => ?_
    rw [next?_le_iff step]
    exact ⟨fun ⟨order, working⟩ => ⟨Int.le_of_lt order, order, working⟩, And.right⟩
  rw [nextWorkingDay?_eq_some]
  constructor
  · rintro ⟨next, step, first⟩
    exact (same step).mp first
  · intro first
    have order := first.isFit.1
    rw [lt_iff] at order
    obtain ⟨next, step⟩ := exists_later? (a := d) (b := found) (n := 1) (by omega)
    exact ⟨next, step, (same step).mpr first⟩

theorem nextWorkingDay?_eq_none : s.nextWorkingDay? d = none ↔ ∀ e, d < e → e ∈ s := by
  constructor
  · intro failed e order
    by_contra working
    obtain ⟨found, search⟩ := exists_nextWorkingDay order working
    rw [failed] at search
    cases search
  · intro listed
    cases search : s.nextWorkingDay? d with
    | none => rfl
    | some found =>
      have first := (nextWorkingDay?_eq_some_iff.mp search).isFit
      exact absurd (listed found first.1) first.2

/-- What searches through the calendar find, and that they end. -/
structure FindsWorkingDays (s : NonWorkingDates) : Prop where
  /-- Date by date, the search ends after at most as many steps as dates are listed. -/
  searches : ∀ d, ∃ n ≤ s.dates.length, s.Searches d n (s.workingDayOnOrAfter? d)
  onOrAfter : ∀ d found, s.workingDayOnOrAfter? d = some found ↔ FirstFrom (· ∉ s) d found
  noneOnOrAfter : ∀ d, s.workingDayOnOrAfter? d = none ↔ ∀ e, d ≤ e → e ∈ s
  after : ∀ d found, s.nextWorkingDay? d = some found ↔
    FirstFrom (fun e => d < e ∧ e ∉ s) d found
  noneAfter : ∀ d, s.nextWorkingDay? d = none ↔ ∀ e, d < e → e ∈ s

theorem findsWorkingDays (s : NonWorkingDates) : s.FindsWorkingDays where
  searches d := by
    obtain ⟨n, search⟩ := s.searches_workingDayOnOrAfter? d
    exact ⟨n, search.le_length, search⟩
  onOrAfter _ _ := workingDayOnOrAfter?_eq_some
  noneOnOrAfter _ := workingDayOnOrAfter?_eq_none
  after _ _ := nextWorkingDay?_eq_some_iff
  noneAfter _ := nextWorkingDay?_eq_none

/-- The days from `start` on and the day that is next after them are all the
working days from there to the next one, in their order. -/
structure Consecutive (s : NonWorkingDates) (start : Option Date) (days : List Date)
    (next : Option Date) : Prop where
  ascending : (days ++ next.toList).Pairwise (· < ·)
  working : ∀ d ∈ days ++ next.toList, d ∉ s ∧ ∃ first, start = some first ∧ first ≤ d
  complete : ∀ e ∉ s, (∃ first, start = some first ∧ first ≤ e) →
    e ∈ days ∨ ∃ d, next = some d ∧ d ≤ e

variable {start next : Option Date} {days : List Date} {day : Date}

theorem Consecutive.none (working : ∀ first, start = some first → first ∉ s) :
    s.Consecutive start [] start where
  ascending := by cases start <;> simp
  working d member := by
    have own : start = some d := by simpa [eq_comm] using member
    exact ⟨working d own, d, own, Date.le_refl d⟩
  complete _ _ reached := .inr reached

/-- One more working day before those from the next one on. -/
theorem Consecutive.cons (working : day ∉ s)
    (rest : s.Consecutive (s.nextWorkingDay? day) days next) :
    s.Consecutive (some day) (day :: days) next where
  ascending := by
    refine List.pairwise_cons.mpr ⟨fun d member => ?_, rest.ascending⟩
    obtain ⟨-, first, step, order⟩ := rest.working d member
    have later := lt_nextWorkingDay step
    rw [lt_iff, le_iff] at *
    omega
  working d member := by
    rcases List.mem_cons.mp member with rfl | inRest
    · exact ⟨working, d, rfl, Date.le_refl d⟩
    · obtain ⟨free, first, step, order⟩ := rest.working d inRest
      exact ⟨free, day, rfl, Date.le_trans (Int.le_of_lt (lt_nextWorkingDay step)) order⟩
  complete e free reached := by
    obtain ⟨_, ⟨⟩, order⟩ := reached
    by_cases back : e ≤ day
    · exact .inl (Date.le_antisymm back order ▸ List.mem_cons_self)
    · have later := Date.not_le.mp back
      obtain ⟨found, step⟩ := exists_nextWorkingDay later free
      have inRest := rest.complete e free ⟨found, step, nextWorkingDay?_le step later free⟩
      exact inRest.imp_left (List.mem_cons_of_mem day)

end NonWorkingDates

/-- Dates in ascending order are no more than there are from the first to the last number. -/
theorem length_le_of_ascending {days : List Date} {low high : Int}
    (ascending : days.Pairwise (· < ·)) (within : ∀ d ∈ days, low ≤ d.number ∧ d.number ≤ high) :
    (days.length : Int) ≤ max 0 (high + 1 - low) := by
  induction days generalizing low with
  | nil => exact Int.le_max_left 0 _
  | cons day rest ih =>
    obtain ⟨first, later⟩ := List.pairwise_cons.mp ascending
    obtain ⟨above, below⟩ := within day List.mem_cons_self
    have closer : ∀ d ∈ rest, day.number + 1 ≤ d.number ∧ d.number ≤ high := fun d member =>
      ⟨first d member, (within d (List.mem_cons_of_mem day member)).2⟩
    have fewer := ih later closer
    rw [List.length_cons]
    omega

/-! Walks -/

namespace Simulation

/-- From a day with some progress on, the walk has passed these days one after
the other, and stands before `next` with the progress made. -/
inductive Passed (sim : Simulation) :
    Option Date → Progress → List Date → Option Date → Progress → Prop
  | start {next : Option Date} {p : Progress} : Passed sim next p [] next p
  | onward {day : Date} {p q final : Progress} {days : List Date} {next : Option Date}
      (visited : (sim.visit day p).result = .ok (.onward q))
      (rest : Passed sim (sim.dayAfter day) q days next final) :
      Passed sim (some day) p (day :: days) next final

/-- The walk ends before a day that it does not pass, or at the end of the calendar. -/
inductive Ends (sim : Simulation) (p : Progress) : Option Date → Except Overflow Progress → Prop
  | calendarEnds : Ends sim p none (.ok p)
  | finished {day : Date} (visited : (sim.visit day p).result = .ok .finished) :
      Ends sim p (some day) (.ok p)
  | overflow {day : Date} {cause : Overflow} (visited : (sim.visit day p).result = .error cause) :
      Ends sim p (some day) (.error cause)

variable {sim : Simulation} {start next : Option Date} {p q : Progress} {days : List Date}

/-- Every walk comes to an end after some days, and results in what it ends with. -/
theorem walk_ends (sim : Simulation) (start : Option Date) (p : Progress) (told : List Event) :
    ∃ days next q, sim.Passed start p days next q ∧
      sim.Ends q next (sim.walk start p told).result := by
  induction start, p, told using walk.induct sim with
  | case1 p told =>
    rw [walk]
    exact ⟨[], none, p, .start, .calendarEnds⟩
  | case2 p told day events cause visited =>
    rw [walk, visited]
    exact ⟨[], some day, p, .start, .overflow (congrArg Traced.result visited)⟩
  | case3 p told day events visited =>
    rw [walk, visited]
    exact ⟨[], some day, p, .start, .finished (congrArg Traced.result visited)⟩
  | case4 p told day events q visited ih =>
    rw [walk, visited]
    obtain ⟨days, next, final, rest, ended⟩ := ih
    exact ⟨day :: days, next, final, .onward (congrArg Traced.result visited) rest, ended⟩

/-- A day is passed only if the simulation goes on there. -/
theorem goesOn_of_onward {day : Date} (visited : (sim.visit day p).result = .ok (.onward q)) :
    sim.GoesOn day p := by
  by_contra ended
  rw [visit_of_not_goesOn ended] at visited
  cases visited

theorem Passed.inHorizon (passed : sim.Passed start p days next q) :
    ∀ d ∈ days, sim.request.today.daysTo d ≤ sim.maxHorizonDays.toNat := by
  induction passed with
  | start => simp
  | onward visited _ ih =>
    exact List.forall_mem_cons.mpr ⟨(goesOn_of_onward visited).inHorizon, ih⟩

/-- A walk passes from working day to working day and leaves none out. -/
theorem Passed.consecutive (passed : sim.Passed start p days next q)
    (working : ∀ first, start = some first → first ∉ sim.request.nonWorkingDates) :
    sim.request.nonWorkingDates.Consecutive start days next := by
  induction passed with
  | start => exact .none working
  | onward visited _ ih =>
    have rest := ih fun _ step => NonWorkingDates.nextWorkingDay?_working step
    exact rest.cons (working _ rfl)

end Simulation

namespace Request
variable {r : Request} {h : UInt32} {remaining : Duration} {days : List Date} {next : Option Date}
variable {p : Progress}

/-- The days that a simulation has passed, and the one that comes next. -/
structure Trail (r : Request) (h : UInt32) (days : List Date) (next : Option Date) : Prop where
  /-- They are visited in their order, each of them once. -/
  ascending : (days ++ next.toList).Pairwise (· < ·)
  working : ∀ d ∈ days ++ next.toList, r.today ≤ d ∧ d ∉ r.nonWorkingDates
  /-- No working day from today on is skipped. -/
  complete : ∀ e, r.today ≤ e → e ∉ r.nonWorkingDates → e ∈ days ∨ ∃ d, next = some d ∧ d ≤ e
  inHorizon : ∀ d ∈ days, r.today.daysTo d ≤ h.toNat
  few : days.length ≤ h.toNat + 1

theorem trail_of_passed
    (passed : (r.simulation h).Passed r.firstDay ⟨remaining, [], []⟩ days next p) :
    r.Trail h days next := by
  have first : ∀ day, r.firstDay = some day → FirstFrom (· ∉ r.nonWorkingDates) r.today day :=
    fun _ search => NonWorkingDates.workingDayOnOrAfter?_eq_some.mp search
  have along := passed.consecutive fun day search => (first day search).isFit
  have inHorizon := passed.inHorizon
  have working : ∀ d ∈ days ++ next.toList, r.today ≤ d ∧ d ∉ r.nonWorkingDates := by
    intro d member
    obtain ⟨free, day, search, order⟩ := along.working d member
    exact ⟨Date.le_trans (first day search).reached order, free⟩
  refine ⟨along.ascending, working, fun e coming free => ?_, inHorizon, ?_⟩
  · obtain ⟨day, search, isFirst⟩ := NonWorkingDates.exists_workingDayOnOrAfter coming free
    exact along.complete e free ⟨day, search, isFirst.least e coming free⟩
  · have ascending := (List.pairwise_append.mp along.ascending).1
    have bound := length_le_of_ascending ascending fun d member =>
      ⟨(working d (List.mem_append_left _ member)).1,
        Int.le_add_of_sub_left_le (inHorizon d member)⟩
    simp only [simulation] at bound
    omega

/-- Searches through the calendar end, and they find the nearest working day if
there is one. So the simulation for a request visits working days only, each
once and in their order, and skips none. It always ends, with a schedule unless
a duration overflows, and passes at most one day more than the horizon has,
whatever remains on the way. -/
theorem simulation_visits_the_working_days :
    (∀ s : NonWorkingDates, s.FindsWorkingDays) ∧
    ∀ (r : Request) (h : UInt32) (remaining : Duration),
      (∀ days next p, (r.simulation h).Passed r.firstDay ⟨remaining, [], []⟩ days next p →
        r.Trail h days next) ∧
      ∃ days next p ended, (r.simulation h).Passed r.firstDay ⟨remaining, [], []⟩ days next p ∧
        (r.simulation h).Ends p next ended ∧
        (r.schedule h remaining).result = ended.map Progress.conclude := by
  refine ⟨NonWorkingDates.findsWorkingDays, fun r h remaining => ⟨?_, ?_⟩⟩
  · exact fun days next p passed => trail_of_passed passed
  · obtain ⟨days, next, p, passed, ended⟩ :=
      (r.simulation h).walk_ends r.firstDay ⟨remaining, [], []⟩ []
    refine ⟨days, next, p, _, passed, ended, ?_⟩
    rw [schedule, Traced.result_bind]
    rfl

end Request
end UnpaidWork
