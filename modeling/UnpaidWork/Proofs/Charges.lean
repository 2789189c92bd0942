import UnpaidWork.Proofs.Filling
import UnpaidWork.Proofs.Overshoot

/-!
What a simulation takes from the time that remains, in the order in which it
does. Each required appointment is a use of a slot, and takes the whole slot or
what remained just before it; each forced retention takes its own length. The
two kinds follow one another by date and never share one, a use that cannot take
its whole slot is the last thing that happens, and an allocation to be used once
is used only if nothing before it comes from this allocation.
-/
namespace UnpaidWork

/-- A slot in use, with the time that remained just before it. -/
structure Use where
  slot : Slot
  before : Duration

namespace Use

/-- The allocation that is used. -/
def allocation (u : Use) : Allocation := u.slot.allocation

/-- The time that the use takes: the whole slot, or what remained. -/
def length (u : Use) : Duration := u.before.min u.slot.duration

/-- The appointment that is required for the use. -/
def appointment (u : Use) : RequiredAppointment := u.slot.appointment u.length

end Use

/-- What takes from the remaining time: a slot that is used, or a booking that is kept. -/
inductive Charge where
  | use (u : Use)
  | keep (booking : ExistingAppointment)

namespace Charge

/-- The date of a charge. -/
def date : Charge → Date
  | .use u => u.slot.day
  | .keep b => b.date

/-- The time that a charge takes. -/
def time : Charge → Duration
  | .use u => u.length
  | .keep b => b.duration

/-- The appointment that a charge requires. -/
def required? : Charge → Option RequiredAppointment
  | .use u => some u.appointment
  | .keep _ => none

/-- The booking that a charge keeps. -/
def kept? : Charge → Option ExistingAppointment
  | .use _ => none
  | .keep b => some b

/-- The allocation from which the appointment of a charge comes. -/
def allocationId? : Charge → Option Int64
  | .use u => some u.allocation.id
  | .keep b => b.allocationId

/-- The charge takes a whole slot or a whole booking. -/
def IsWhole : Charge → Prop
  | .use u => u.length = u.slot.duration
  | .keep _ => True

/-- How one charge comes before another: by date, with bookings of one date
together, and uses of one date in the order of their allocations. -/
inductive Precedes (order : Allocation → Allocation → Prop) : Charge → Charge → Prop
  | use {c : Charge} {u : Use} (earlier : c.date < u.slot.day)
      (unused : u.allocation.frequency = .once → c.allocationId? ≠ some u.allocation.id) :
      Precedes order c (.use u)
  | keep {c : Charge} {b : ExistingAppointment} (earlier : c.date < b.date) :
      Precedes order c (.keep b)
  | usedTogether {u v : Use} (sameDay : u.slot.day = v.slot.day)
      (inOrder : order u.allocation v.allocation) : Precedes order (.use u) (.use v)
  | keptTogether {a b : ExistingAppointment} (sameDay : a.date = b.date) :
      Precedes order (.keep a) (.keep b)

end Charge

open Charge (Precedes)

/-- Charges one after the other, from the time that remains before them to the
time that is left by them. A slot is used only while something remains. -/
inductive Ledger : Int → List Charge → Int → Prop
  | closed (time : Int) : Ledger time [] time
  | use {time left : Int} {u : Use} {rest : List Charge} (something : 0 < time)
      (before : u.before.nanos = time) (later : Ledger (time - u.length.nanos) rest left) :
      Ledger time (.use u :: rest) left
  | keep {time left : Int} {b : ExistingAppointment} {rest : List Charge}
      (later : Ledger (time - b.duration.nanos) rest left) : Ledger time (.keep b :: rest) left

namespace Ledger
variable {time middle left : Int} {charges more earlier rest : List Charge} {u : Use}

theorem append (first : Ledger time charges middle) (second : Ledger middle more left) :
    Ledger time (charges ++ more) left := by
  induction first with
  | closed => exact second
  | use something before _ ih => exact .use something before (ih second)
  | keep _ ih => exact .keep (ih second)

/-- Bookings take their whole time, whatever remains. -/
theorem keepAll (bookings : List ExistingAppointment) (time : Int) :
    Ledger time (bookings.map .keep) (time - timeOf ExistingAppointment.duration bookings) := by
  induction bookings generalizing time with
  | nil =>
    rw [timeOf_nil, Int.sub_zero]
    exact .closed time
  | cons b rest ih =>
    rw [timeOf_cons, ← Int.sub_sub]
    exact .keep (ih (time - b.duration.nanos))

/-- Just before a use remains what there was, less the time of all charges before it. -/
theorem before_use (ledger : Ledger time (earlier ++ .use u :: rest) left) :
    0 < u.before.nanos ∧ u.before.nanos = time - timeOf Charge.time earlier := by
  induction earlier generalizing time with
  | nil =>
    cases ledger with
    | use something before later =>
      rw [timeOf_nil]
      omega
  | cons c earlier ih =>
    cases ledger with
    | use _ _ later =>
      obtain ⟨something, before⟩ := ih later
      rw [timeOf_cons, Charge.time]
      omega
    | keep later =>
      obtain ⟨something, before⟩ := ih later
      rw [timeOf_cons, Charge.time]
      omega

end Ledger

section Charged
variable {order : Allocation → Allocation → Prop} {p q final : Progress}
variable {charges more : List Charge} {slots : List Slot} {c : Charge}

/-- The charges lead from one progress to the other. -/
structure Charged (order : Allocation → Allocation → Prop) (p q : Progress)
    (charges : List Charge) : Prop where
  required : q.required = p.required ++ charges.filterMap Charge.required?
  forced : q.forced = p.forced ++ charges.filterMap Charge.kept?
  ledger : Ledger p.remaining.nanos charges q.remaining.nanos
  ordered : charges.Pairwise fun c d => c.IsWhole ∧ c.Precedes order d
  whole : 0 < q.remaining.nanos → ∀ c ∈ charges, c.IsWhole

theorem Charged.none : Charged order p p [] :=
  ⟨by simp, by simp, .closed _, .nil, fun _ _ member => nomatch member⟩

theorem Charged.append (first : Charged order p q charges) (rest : Charged order q final more)
    (something : 0 < q.remaining.nanos)
    (across : ∀ c ∈ charges, ∀ d ∈ more, c.Precedes order d) :
    Charged order p final (charges ++ more) where
  required := by rw [rest.required, first.required, List.filterMap_append, List.append_assoc]
  forced := by rw [rest.forced, first.forced, List.filterMap_append, List.append_assoc]
  ledger := first.ledger.append rest.ledger
  ordered := List.pairwise_append.mpr ⟨first.ordered, rest.ordered, fun c before d after =>
    ⟨first.whole something c before, across c before d after⟩⟩
  whole remains c member := by
    rcases List.mem_append.mp member with before | after
    · exact first.whole something c before
    · exact rest.whole remains c after

/-- A schedule uses the allocations of its charges. -/
theorem Charged.uses (charged : Charged order p q charges) (member : c ∈ charges) {id : Int64}
    (source : c.allocationId? = some id) : q.schedule.uses id := by
  simp only [Progress.schedule, Schedule.uses, charged.required, charged.forced, Bool.or_eq_true,
    List.any_eq_true, List.mem_append, List.mem_filterMap, decide_eq_true_eq]
  cases c with
  | use u => exact .inl ⟨u.appointment, .inr ⟨_, member, rfl⟩, Option.some.inj source⟩
  | keep b => exact .inr ⟨b, .inr ⟨_, member, rfl⟩, source⟩

/-- Slots of one day are filled in their order. -/
theorem Simulation.Fills.charged (ordered : slots.Pairwise fun x y =>
    x.day = y.day ∧ order x.allocation y.allocation) (filled : Fills p slots q) :
    ∃ uses : List Use, Charged order p q (uses.map .use) ∧ ∀ u ∈ uses, u.slot ∈ slots := by
  induction filled with
  | used => exact ⟨[], .none, by simp⟩
  | allPassed => exact ⟨[], .none, by simp⟩
  | @fills p q left x slots something subtracted rest ih =>
    obtain ⟨first, later⟩ := List.pairwise_cons.mp ordered
    let u : Use := ⟨x, p.remaining⟩
    have length : u.length = p.remaining.min x.duration := rfl
    have after : p.remaining.nanos - u.length.nanos = left.nanos := by rw [length, subtracted]
    have alone : Charged order p
        ⟨left, p.required ++ [x.appointment (p.remaining.min x.duration)], p.forced⟩ [.use u] := by
      refine ⟨rfl, by simp [Charge.kept?], .use something rfl ?_, List.pairwise_singleton _ _, ?_⟩
      · rw [after]
        exact .closed _
      · intro remains c member
        cases List.mem_singleton.mp member
        have shorter := Duration.nanos_min p.remaining x.duration
        change p.remaining.min x.duration = x.duration
        exact Duration.ext (by dsimp only at remains; omega)
    by_cases remains : 0 < left.nanos
    · obtain ⟨uses, charged, listed⟩ := ih later
      refine ⟨u :: uses, alone.append charged remains ?_, ?_⟩
      · intro c own d other
        cases List.mem_singleton.mp own
        obtain ⟨v, member, rfl⟩ := List.mem_map.mp other
        obtain ⟨sameDay, inOrder⟩ := first v.slot (listed v member)
        exact .usedTogether sameDay inOrder
      · refine List.forall_mem_cons.mpr ⟨List.mem_cons_self, fun v member => ?_⟩
        exact List.mem_cons_of_mem x (listed v member)
    · cases rest.eq_of_nothing (Int.not_lt.mp remains)
      exact ⟨[u], alone, by simp [u]⟩

/-- The bookings of one day are kept together. -/
theorem charged_of_keepBooked {day : Date} {bookings : List ExistingAppointment}
    (dated : ∀ b ∈ bookings, b.date = day)
    (kept : (Progress.keepBooked day bookings p).result = .ok q) :
    Charged order p q (bookings.map .keep) := by
  obtain ⟨remaining, required, forced⟩ := Progress.keepBooked_appends kept
  refine ⟨?_, ?_, ?_, ?_, ?_⟩
  · simp [required, List.filterMap_map, Function.comp_def, Charge.required?]
  · simp [forced, List.filterMap_map, Function.comp_def, Charge.kept?]
  · rw [remaining]
    exact .keepAll bookings _
  · refine List.pairwise_map.mpr (List.pairwise_of_forall_mem_list fun a first b second => ?_)
    exact ⟨trivial, .keptTogether (by rw [dated a first, dated b second])⟩
  · intro _ c member
    obtain ⟨b, -, rfl⟩ := List.mem_map.mp member
    trivial

end Charged

namespace Simulation
variable {sim : Simulation} {order : Allocation → Allocation → Prop} {start : Option Date}
variable {day : Date} {p q final : Progress}

/-- A slot that a simulation may use: its allocation occurs on a working day within
the horizon, and is not used up by what is scheduled so far. -/
structure MayUse (sim : Simulation) (p : Progress) (x : Slot) : Prop where
  listed : x.allocation ∈ sim.allocations
  working : x.day ∉ sim.request.nonWorkingDates
  inHorizon : sim.request.today.daysTo x.day ≤ sim.maxHorizonDays.toNat
  occurs : x.allocation.OccursOn x.day
  unused : x.allocation.frequency = .once → ¬ p.schedule.uses x.allocation.id

/-- A day charges the slots that can be used on it, or its bookings. -/
theorem Passes.charged (ordered : sim.allocations.Pairwise order) (goesOn : sim.GoesOn day p)
    (working : day ∉ sim.request.nonWorkingDates) (passed : sim.Passes day p q) :
    ∃ charges, Charged order p q charges ∧ (∀ c ∈ charges, c.date = day) ∧
      ∀ u, .use u ∈ charges → sim.MayUse p u.slot := by
  cases passed with
  | idle => exact ⟨[], .none, by simp, by simp⟩
  | keeps _ _ kept =>
    have dated : ∀ b ∈ sim.booked day, b.date = day := fun b member => (mem_booked member).2.2
    exact ⟨_, charged_of_keepBooked dated kept, by simpa [Charge.date] using dated, by simp⟩
  | grants _ _ granted =>
    have inOrder : ((sim.applicable day p).map (Slot.mk day)).Pairwise fun x y =>
        x.day = y.day ∧ order x.allocation y.allocation :=
      List.pairwise_map.mpr ((ordered.filter _).imp fun before => ⟨rfl, before⟩)
    obtain ⟨uses, charged, listed⟩ := (fills_of_grant granted).charged inOrder
    have origin : ∀ u ∈ uses, ∃ a ∈ sim.applicable day p, Slot.mk day a = u.slot :=
      fun u member => List.mem_map.mp (listed u member)
    refine ⟨_, charged, fun c member => ?_, fun u member => ?_⟩
    · obtain ⟨u, used, rfl⟩ := List.mem_map.mp member
      obtain ⟨a, -, same⟩ := origin u used
      rw [Charge.date, ← same]
    · obtain ⟨v, used, same⟩ := List.mem_map.mp member
      cases same
      obtain ⟨a, usable, same⟩ := origin u used
      obtain ⟨listed, possible⟩ := List.mem_filter.mp usable
      obtain ⟨unused, occurs⟩ := Allocation.isPossibleOn_iff.mp possible
      rw [← same]
      exact ⟨listed, working, goesOn.inHorizon, occurs, fun once used => unused ⟨once, used⟩⟩

/-- A walk charges the days from which it starts on, one after the other. -/
theorem Reaches.charged (ordered : sim.allocations.Pairwise order)
    (reached : sim.Reaches start p final)
    (working : ∀ first, start = some first → first ∉ sim.request.nonWorkingDates) :
    ∃ charges, Charged order p final charges ∧
      (∀ c ∈ charges, ∃ first, start = some first ∧ first ≤ c.date) ∧
      ∀ u, .use u ∈ charges → sim.MayUse p u.slot := by
  induction reached with
  | calendarEnds => exact ⟨[], .none, by simp, by simp⟩
  | stops => exact ⟨[], .none, by simp, by simp⟩
  | @passes day p q final goesOn passed rest ih =>
    obtain ⟨today, charged, dated, mayUse⟩ := passed.charged ordered goesOn (working day rfl)
    have own : ∀ c ∈ today, ∃ first, some day = some first ∧ first ≤ c.date := fun c member =>
      ⟨day, rfl, dated c member ▸ Date.le_refl day⟩
    by_cases something : 0 < q.remaining.nanos
    · obtain ⟨later, chargedLater, after, mayUseLater⟩ :=
        ih fun _ step => NonWorkingDates.nextWorkingDay?_working step
      have ahead : ∀ d ∈ later, day < d.date := by
        intro d member
        obtain ⟨next, step, order⟩ := after d member
        exact lt_of_dayAfter_le step order
      refine ⟨today ++ later, charged.append chargedLater something ?_, ?_, fun u member => ?_⟩
      · intro c before d member
        have earlier : c.date < d.date := dated c before ▸ ahead d member
        cases d with
        | keep b => exact .keep earlier
        | use u =>
          exact .use earlier fun once source =>
            (mayUseLater u member).unused once (charged.uses before source)
      · refine List.forall_mem_append.mpr ⟨own, fun d member => ?_⟩
        exact ⟨day, rfl, Int.le_of_lt (ahead d member)⟩
      · rcases List.mem_append.mp member with now | after
        · exact mayUse u now
        · obtain ⟨listed, working, inHorizon, occurs, unused⟩ := mayUseLater u after
          refine ⟨listed, working, inHorizon, occurs, fun once used => unused once ?_⟩
          rw [Progress.uses_of_adds charged.required charged.forced, used, Bool.true_or]
    · cases rest.eq_of_nothing (Int.not_lt.mp something)
      exact ⟨today, charged, own, mayUse⟩

end Simulation

/-- How a schedule for `remaining` comes about: by charges that use slots of the
request or keep bookings. What they leave, if anything, is the shortfall. -/
structure Request.Accounts (r : Request) (h : UInt32) (remaining : Duration) (s : Schedule)
    (order : Allocation → Allocation → Prop) (charges : List Charge) : Prop where
  required : s.requiredAppointments = charges.filterMap Charge.required?
  forced : s.forcedRetentions = charges.filterMap Charge.kept?
  ledger : ∃ left, Ledger remaining.nanos charges left ∧ s.shortfall.nanos = max 0 left
  ordered : charges.Pairwise fun c d => c.IsWhole ∧ c.Precedes order d
  listed : ∀ u, .use u ∈ charges → u.allocation ∈ r.allocations
  inReach : ∀ u, .use u ∈ charges → u.slot.day ∉ r.nonWorkingDates ∧ r.today ≤ u.slot.day ∧
    r.today.daysTo u.slot.day ≤ h.toNat
  occurs : ∀ u, .use u ∈ charges → u.allocation.OccursOn u.slot.day

/-- Every schedule comes about by charges. -/
theorem Request.exists_accounts {r : Request} {h : UInt32} {remaining : Duration} {s : Schedule}
    {order : Allocation → Allocation → Prop}
    (ordered : (sortAllocations r.allocations).Pairwise order)
    (scheduled : (r.schedule h remaining).result = .ok s) :
    ∃ charges, r.Accounts h remaining s order charges := by
  obtain ⟨p, reached, rfl⟩ := schedule_eq_ok.mp scheduled
  obtain ⟨charges, charged, dated, mayUse⟩ :=
    reached.charged ordered fun first search =>
      (NonWorkingDates.workingDayOnOrAfter?_eq_some.mp search).isFit
  refine ⟨charges, charged.required, charged.forced, ⟨_, charged.ledger, p.nanos_shortfall⟩,
    charged.ordered, fun u member => ?_, fun u member => ?_, fun u member => ?_⟩
  · exact mem_simulation_allocations.mp (mayUse u member).listed
  · obtain ⟨first, search, order⟩ := dated _ member
    have coming := Date.le_trans (NonWorkingDates.le_workingDayOnOrAfter search) order
    exact ⟨(mayUse u member).working, coming, (mayUse u member).inHorizon⟩
  · exact (mayUse u member).occurs

end UnpaidWork
