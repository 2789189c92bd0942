import UnpaidWork.Proofs.Charges

/-!
What a schedule may require. Every required appointment uses an allocation of the
request on a working day within the horizon on which it occurs. The list is in
the strict order of the slots, only its last appointment can be cut short, and an
allocation to be used once is used at most once, and not at all once a forced
retention comes from it.
-/
namespace UnpaidWork
open Date

/-- At most one item passes a test that no two of the items pass both. -/
theorem countP_le_one {α : Type} {test : α → Bool} {items : List α}
    (apart : items.Pairwise fun x y => test x → ¬ test y) : items.countP test ≤ 1 := by
  induction items with
  | nil => simp
  | cons x rest ih =>
    obtain ⟨first, later⟩ := List.pairwise_cons.mp apart
    by_cases passes : test x
    · have others : rest.countP test = 0 :=
        List.countP_eq_zero.mpr fun y member => first y member passes
      rw [List.countP_cons_of_pos passes, others]
    · rw [List.countP_cons_of_neg passes]
      exact ih later

/-- Every item but the last stands before the last one. -/
theorem forall_mem_dropLast {α : Type} {R : α → α → Prop} {items : List α}
    (ordered : items.Pairwise R) : ∀ x ∈ items.dropLast, ∃ y ∈ items, R x y := by
  intro x member
  have some : items ≠ [] := by
    rintro rfl
    cases member
  rw [← List.dropLast_append_getLast some] at ordered
  obtain ⟨-, -, last⟩ := List.pairwise_append.mp ordered
  exact ⟨items.getLast some, List.getLast_mem some, last x member _ List.mem_cons_self⟩

/-- The order of two allocations on one day: by start time, then by id. -/
def Allocation.Before (a b : Allocation) : Prop :=
  a.startTime < b.startTime ∨ a.startTime = b.startTime ∧ a.id < b.id

theorem sortAllocations_before {allocations : List Allocation}
    (distinct : (allocations.map (·.id)).Nodup) :
    (sortAllocations allocations).Pairwise Allocation.Before :=
  (sortAllocations_strict default distinct).imp fun before =>
    (before.resolve_left (Int.lt_irrefl _)).2

theorem Allocation.Before.id_ne {a b : Allocation} (before : a.Before b)
    (same : a.id = b.id → a = b) : a.id ≠ b.id := by
  intro equal
  cases same equal
  rcases before with earlier | ⟨-, below⟩
  · exact Nat.lt_irrefl _ earlier
  · exact Int64.lt_irrefl below

/-- The order of required appointments: by date, then by start time, then by the
id of the allocation. -/
def RequiredAppointment.Before (q q' : RequiredAppointment) : Prop :=
  q.date < q'.date ∨ q.date = q'.date ∧
    (q.startTime < q'.startTime ∨ q.startTime = q'.startTime ∧ q.allocationId < q'.allocationId)

namespace Use

/-- How one use comes before another. -/
structure Follows (u v : Use) : Prop where
  whole : u.length = u.slot.duration
  before : u.appointment.Before v.appointment
  daily : u.slot.day = v.slot.day → u.allocation.id ≠ v.allocation.id
  once : v.allocation.frequency = .once → u.allocation.id ≠ v.allocation.id

theorem follows_of_precedes {allocations : List Allocation}
    (distinct : (allocations.map (·.id)).Nodup) {u v : Use}
    (first : u.allocation ∈ allocations) (second : v.allocation ∈ allocations)
    (whole : u.length = u.slot.duration)
    (precedes : (Charge.use u).Precedes Allocation.Before (.use v)) : Follows u v := by
  cases precedes with
  | use earlier unused =>
    refine ⟨whole, .inl earlier, fun sameDay => ?_, fun once same => ?_⟩
    · exact absurd earlier (sameDay ▸ Int.lt_irrefl _)
    · exact unused once (congrArg some same)
  | usedTogether sameDay before =>
    have different : u.allocation.id ≠ v.allocation.id :=
      before.id_ne (List.inj_on_of_nodup_map distinct first second)
    exact ⟨whole, .inr ⟨sameDay, before⟩, fun _ => different, fun _ => different⟩

end Use

namespace Request
variable {r : Request} {h : UInt32} {remaining : Duration} {s : Schedule} {charges : List Charge}

/-- The request justifies what the schedule requires. -/
structure Justifies (r : Request) (h : UInt32) (s : Schedule) : Prop where
  /-- Each required appointment comes from an allocation, on a working day from
  today to the horizon on which it occurs. -/
  origin : ∀ q ∈ s.requiredAppointments, ∃ a ∈ r.allocations,
    q.allocationId = a.id ∧ q.projectCode = a.projectCode ∧ q.startTime = a.startTime ∧
    q.date ∉ r.nonWorkingDates ∧ r.today ≤ q.date ∧ r.today.daysTo q.date ≤ h.toNat ∧
    a.OccursOn q.date
  ordered : s.requiredAppointments.Pairwise RequiredAppointment.Before
  /-- No allocation is used twice on a day. -/
  daily : s.requiredAppointments.Pairwise fun q q' =>
    q.date = q'.date → q.allocationId ≠ q'.allocationId
  /-- Only the last one can be shorter than its slot. -/
  whole : ∀ q ∈ s.requiredAppointments.dropLast, ∃ a ∈ r.allocations,
    q.allocationId = a.id ∧ q.endTime = a.startTime.shift a.duration
  /-- An allocation to be used once is used at most once, -/
  once : ∀ a ∈ r.allocations, a.frequency = .once →
    s.requiredAppointments.countP (fun q => q.allocationId = a.id) ≤ 1
  /-- and never on or after the date of a forced retention that comes from it. -/
  unforced : ∀ a ∈ r.allocations, a.frequency = .once →
    ∀ q ∈ s.requiredAppointments, q.allocationId = a.id →
      ∀ b ∈ s.forcedRetentions, b.allocationId = some a.id → q.date < b.date

/-- The uses of an account follow one another. -/
theorem Accounts.follows (distinct : (r.allocations.map (·.id)).Nodup)
    (accounts : r.Accounts h remaining s Allocation.Before charges) :
    s.requiredAppointments.Pairwise fun q q' => ∃ u v : Use, q = u.appointment ∧
      q' = v.appointment ∧ u.allocation ∈ r.allocations ∧ v.allocation ∈ r.allocations ∧
      u.Follows v := by
  rw [accounts.required]
  refine List.pairwise_filterMap.mpr (accounts.ordered.imp_of_mem ?_)
  intro c d own other precedes q required q' required'
  cases c with
  | keep b => cases required
  | use u =>
    cases d with
    | keep b => cases required'
    | use v =>
      cases required
      cases required'
      have first := accounts.listed u own
      have second := accounts.listed v other
      exact ⟨u, v, rfl, rfl, first, second,
        Use.follows_of_precedes distinct first second precedes.1 precedes.2⟩

theorem Accounts.exists_use {order : Allocation → Allocation → Prop}
    (accounts : r.Accounts h remaining s order charges) :
    ∀ q ∈ s.requiredAppointments, ∃ u, .use u ∈ charges ∧ q = u.appointment := by
  rw [accounts.required]
  intro q member
  obtain ⟨c, charged, required⟩ := List.mem_filterMap.mp member
  cases c with
  | use u =>
    cases required
    exact ⟨u, charged, rfl⟩
  | keep b => cases required

theorem Accounts.exists_keep {order : Allocation → Allocation → Prop}
    (accounts : r.Accounts h remaining s order charges) :
    ∀ b ∈ s.forcedRetentions, .keep b ∈ charges := by
  rw [accounts.forced]
  intro b member
  obtain ⟨c, charged, kept⟩ := List.mem_filterMap.mp member
  cases c with
  | use u => cases kept
  | keep other =>
    cases kept
    exact charged

/-- An allocation to be used once is used before all bookings kept that come from it. -/
theorem Accounts.use_before_keep {order : Allocation → Allocation → Prop} {u : Use}
    {b : ExistingAppointment} (accounts : r.Accounts h remaining s order charges)
    (used : .use u ∈ charges) (kept : .keep b ∈ charges) (once : u.allocation.frequency = .once)
    (source : b.allocationId = some u.allocation.id) : u.slot.day < b.date := by
  obtain ⟨earlier, later, rfl⟩ := List.append_of_mem used
  obtain ⟨-, onward, across⟩ := List.pairwise_append.mp accounts.ordered
  rcases List.mem_append.mp kept with before | after
  · obtain ⟨-, precedes⟩ := across _ before _ List.mem_cons_self
    cases precedes with
    | use _ unused => exact absurd source (unused once)
  · have after := (List.mem_cons.mp after).resolve_left (by simp)
    obtain ⟨-, precedes⟩ := (List.pairwise_cons.mp onward).1 _ after
    cases precedes with
    | keep earlier => exact earlier

/-- Whatever the trigger, the horizon and the time left to do, the request
justifies what a schedule requires. -/
theorem required_appointments_are_justified (distinct : (r.allocations.map (·.id)).Nodup)
    (scheduled : (r.schedule h remaining).result = .ok s) : r.Justifies h s := by
  obtain ⟨charges, accounts⟩ := exists_accounts (sortAllocations_before distinct) scheduled
  have follows := accounts.follows distinct
  refine ⟨fun q member => ?_, follows.imp ?_, follows.imp ?_, fun q member => ?_, ?_, ?_⟩
  · obtain ⟨u, used, rfl⟩ := accounts.exists_use q member
    obtain ⟨working, coming, inHorizon⟩ := accounts.inReach u used
    exact ⟨u.allocation, accounts.listed u used, rfl, rfl, rfl, working, coming, inHorizon,
      accounts.occurs u used⟩
  · rintro q q' ⟨u, v, rfl, rfl, -, -, follow⟩
    exact follow.before
  · rintro q q' ⟨u, v, rfl, rfl, -, -, follow⟩
    exact follow.daily
  · obtain ⟨_, -, u, _, rfl, -, listed, -, follow⟩ := forall_mem_dropLast follows q member
    refine ⟨u.allocation, listed, rfl, ?_⟩
    rw [Use.appointment, follow.whole]
    rfl
  · intro a listed once
    refine countP_le_one (follows.imp ?_)
    rintro q q' ⟨u, v, rfl, rfl, -, second, follow⟩ same same'
    have same : u.allocation.id = a.id := of_decide_eq_true same
    have same' : v.allocation.id = a.id := of_decide_eq_true same'
    cases List.inj_on_of_nodup_map distinct second listed same'
    exact follow.once once same
  · intro a listed once q member same b forced source
    obtain ⟨u, used, rfl⟩ := accounts.exists_use q member
    cases List.inj_on_of_nodup_map distinct (accounts.listed u used) listed same
    exact accounts.use_before_keep used (accounts.exists_keep b forced) once source

/-- The first of three Mondays is booked by an allocation to be used once, so only the
weekly one is used on the others: as a whole at first, and at last for an hour. -/
theorem booked_monday_spends_the_single_use :
    let fiveHours : Duration := ⟨18000000000000, by decide⟩
    let booked := { Sample.booking 7 Sample.monday with allocationId := some 2 }
    let r := { Sample.request .appointmentChange .weekly fiveHours [booked] with
      allocations := [{ Sample.mondays .once with id := 2 }, Sample.mondays .weekly] }
    let thirdMonday : Date := ⟨739179, by decide⟩
    let eleven : TimeOfDay := .wrap 39600 0
    let s : Schedule := ⟨[Sample.slot Sample.nextMonday, { Sample.slot thirdMonday with
      endTime := eleven }], [booked], .zero⟩
    (r.allocations.map (·.id)).Nodup ∧ (r.schedule 365 fiveHours).result = .ok s ∧
      r.Justifies 365 s := by
  intro fiveHours booked r thirdMonday eleven s
  have distinct : (r.allocations.map (·.id)).Nodup := by decide
  have scheduled : (r.schedule 365 fiveHours).result = .ok s := by cbv
  exact ⟨distinct, scheduled, required_appointments_are_justified distinct scheduled⟩

end Request
end UnpaidWork
