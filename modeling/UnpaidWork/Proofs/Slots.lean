import Mathlib.Data.List.Nodup
import UnpaidWork.Proofs.Occurrences
import UnpaidWork.Proofs.Walk

/-!
The slots that a request offers: each of its allocations on each of the working
days within the horizon on which it occurs, and an allocation to be used once
on the first of them only. They can be listed day by day with the allocations in
the order of their slots; the list is then in the order of the slots throughout,
and no slot is left out of it.
-/
namespace UnpaidWork
open Date

instance (a : Allocation) (d : Date) : Decidable (a.OccursOn d) :=
  decidable_of_iff (a.isPossibleOn d .empty = true) (by
    simp [Allocation.isPossibleOn_iff, Schedule.uses, Schedule.empty])

/-- An allocation on one day. -/
structure Slot where
  day : Date
  allocation : Allocation

namespace Slot

/-- The length of the allocation's use. -/
def duration (x : Slot) : Duration := x.allocation.duration

/-- The order of slots: by day, then by start time, then by id. -/
def Before (x y : Slot) : Prop :=
  x.day < y.day ∨ x.day = y.day ∧
    (x.allocation.startTime < y.allocation.startTime ∨
      x.allocation.startTime = y.allocation.startTime ∧ x.allocation.id < y.allocation.id)

/-- The appointment that uses a slot from its start on for a length of time. -/
def appointment (x : Slot) (length : Duration) : RequiredAppointment where
  date := x.day
  startTime := x.allocation.startTime
  endTime := x.allocation.startTime.shift length
  projectCode := x.allocation.projectCode
  allocationId := x.allocation.id

end Slot

/-- The request offers the slot: its day is a working day within the horizon on
which the allocation occurs, the first such day if the allocation is to be used once. -/
structure Request.Offers (r : Request) (h : UInt32) (x : Slot) : Prop where
  listed : x.allocation ∈ r.allocations
  working : x.day ∉ r.nonWorkingDates
  coming : r.today ≤ x.day
  inHorizon : r.today.daysTo x.day ≤ h.toNat
  occurs : x.allocation.OccursOn x.day
  first : x.allocation.frequency = .once →
    FirstFrom (fun d => d ∉ r.nonWorkingDates ∧ x.allocation.OccursOn d) r.today x.day

/-- All slots that the request offers, in their order. -/
structure Request.OffersInOrder (r : Request) (h : UInt32) (slots : List Slot) : Prop where
  ordered : slots.Pairwise Slot.Before
  complete : ∀ x, x ∈ slots ↔ r.Offers h x

/-! The order of the allocations -/

section Order

theorem slotOrder_iff {s t : TimeOfDay} {i j : Int64} :
    slotOrder s i t j ↔ s < t ∨ s = t ∧ i ≤ j := by
  simp [slotOrder]

theorem slotOrder_total (s : TimeOfDay) (i : Int64) (t : TimeOfDay) (j : Int64) :
    (slotOrder s i t j || slotOrder t j s i) = true := by
  rw [Bool.or_eq_true, slotOrder_iff, slotOrder_iff, TimeOfDay.lt_iff, TimeOfDay.lt_iff,
    ← TimeOfDay.rank_inj, ← TimeOfDay.rank_inj, Int64.le_iff_toInt_le, Int64.le_iff_toInt_le]
  omega

theorem slotOrder_trans {s t u : TimeOfDay} {i j k : Int64} (first : slotOrder s i t j)
    (second : slotOrder t j u k) : slotOrder s i u k := by
  rw [slotOrder_iff, TimeOfDay.lt_iff, ← TimeOfDay.rank_inj, Int64.le_iff_toInt_le] at *
  omega

/-- Whatever has a slot is sorted in the order of the slots. -/
theorem mergeSort_slotOrder {α : Type} (start : α → TimeOfDay) (id : α → Int64) (items : List α) :
    (items.mergeSort fun a b => slotOrder (start a) (id a) (start b) (id b)).Pairwise fun a b =>
      slotOrder (start a) (id a) (start b) (id b) := by
  apply List.pairwise_mergeSort
  · exact fun _ _ _ => slotOrder_trans
  · exact fun _ _ => slotOrder_total _ _ _ _

/-- Allocations with different ids have their slots of one day in a strict order. -/
theorem sortAllocations_strict {allocations : List Allocation} (day : Date)
    (distinct : (allocations.map (·.id)).Nodup) :
    (sortAllocations allocations).Pairwise fun a b => Slot.Before ⟨day, a⟩ ⟨day, b⟩ := by
  have sorted := mergeSort_slotOrder Allocation.startTime Allocation.id allocations
  have ids : ((sortAllocations allocations).map (·.id)).Nodup :=
    ((List.mergeSort_perm allocations _).map _).nodup_iff.mpr distinct
  refine (sorted.and (List.pairwise_map.mp ids)).imp ?_
  rintro a b ⟨order, different⟩
  refine .inr ⟨rfl, (slotOrder_iff.mp order).imp_right fun ⟨start, below⟩ => ⟨start, ?_⟩⟩
  rw [ne_eq, ← Int64.toInt_inj] at different
  rw [Int64.le_iff_toInt_le] at below
  change a.id < b.id
  rw [Int64.lt_iff_toInt_lt]
  omega

end Order

/-! The slots day by day -/

namespace Simulation

/-- The working days from a day on, within the horizon. -/
def days (sim : Simulation) : Option Date → List Date
  | none => []
  | some day =>
    if sim.request.today.daysTo day ≤ sim.maxHorizonDays.toNat then
      day :: sim.days (sim.dayAfter day)
    else []
termination_by day => daysLeft day
decreasing_by exact sim.daysLeft_dayAfter_lt day

/-- The allocations that occur on a day, those apart that are to be used once
and occurred on an earlier day. -/
def usableOn (sim : Simulation) (earlier : List Date) (day : Date) : List Allocation :=
  sim.allocations.filter fun a =>
    a.OccursOn day ∧ (a.frequency = .once → ∀ e ∈ earlier, ¬ a.OccursOn e)

/-- The slots of some days, one day after the other. -/
def slotsOver (sim : Simulation) (earlier : List Date) : List Date → List Slot
  | [] => []
  | day :: rest =>
    (sim.usableOn earlier day).map (Slot.mk day) ++ sim.slotsOver (day :: earlier) rest

variable {sim : Simulation} {start : Option Date} {day e : Date} {earlier days : List Date}
variable {a : Allocation} {x : Slot}

theorem mem_usableOn : a ∈ sim.usableOn earlier day ↔ a ∈ sim.allocations ∧ a.OccursOn day ∧
    (a.frequency = .once → ∀ e ∈ earlier, ¬ a.OccursOn e) := by
  simp only [usableOn, List.mem_filter, decide_eq_true_eq]

/-- After a working day follow exactly the later working days. -/
theorem dayAfter_le_iff (working : e ∉ sim.request.nonWorkingDates) :
    (∃ next, sim.dayAfter day = some next ∧ next ≤ e) ↔ day < e := by
  constructor
  · rintro ⟨next, step, order⟩
    exact lt_of_dayAfter_le step order
  · intro order
    obtain ⟨next, step⟩ := NonWorkingDates.exists_nextWorkingDay order working
    exact ⟨next, step, NonWorkingDates.nextWorkingDay?_le step order working⟩

/-- The listed days are the working days from the start on within the horizon. -/
theorem mem_days (working : ∀ first, start = some first → first ∉ sim.request.nonWorkingDates) :
    e ∈ sim.days start ↔ (∃ first, start = some first ∧ first ≤ e) ∧
      e ∉ sim.request.nonWorkingDates ∧
      sim.request.today.daysTo e ≤ sim.maxHorizonDays.toNat := by
  induction start using days.induct sim with
  | case1 => simp [days]
  | case2 day inHorizon ih =>
    have rest := ih fun next step => NonWorkingDates.nextWorkingDay?_working step
    have own := working day rfl
    rw [days, if_pos inHorizon, List.mem_cons, rest]
    constructor
    · rintro (rfl | ⟨after, free, within⟩)
      · exact ⟨⟨_, rfl, Date.le_refl _⟩, own, inHorizon⟩
      · exact ⟨⟨day, rfl, Int.le_of_lt ((dayAfter_le_iff free).mp after)⟩, free, within⟩
    · rintro ⟨⟨_, ⟨⟩, order⟩, free, within⟩
      by_cases back : e ≤ day
      · exact .inl (Date.le_antisymm back order)
      · exact .inr ⟨(dayAfter_le_iff free).mpr (Date.not_le.mp back), free, within⟩
  | case3 day beyond =>
    rw [days, if_neg beyond]
    constructor
    · intro member
      cases member
    · rintro ⟨⟨_, ⟨⟩, order⟩, -, within⟩
      simp only [daysTo, le_iff] at *
      omega

/-- The listed days ascend. -/
theorem days_ascending (start : Option Date)
    (working : ∀ first, start = some first → first ∉ sim.request.nonWorkingDates) :
    (sim.days start).Pairwise (· < ·) := by
  induction start using days.induct sim with
  | case1 => simp [days]
  | case2 day inHorizon ih =>
    have after : ∀ next, sim.dayAfter day = some next → next ∉ sim.request.nonWorkingDates :=
      fun next step => NonWorkingDates.nextWorkingDay?_working step
    rw [days, if_pos inHorizon]
    refine List.pairwise_cons.mpr ⟨fun e member => ?_, ih after⟩
    obtain ⟨later, free, -⟩ := (mem_days after).mp member
    exact (dayAfter_le_iff free).mp later
  | case3 day beyond =>
    rw [days, if_neg beyond]
    exact .nil

/-- A slot is listed on its day unless its allocation is to be used once and
occurred on an earlier day. -/
theorem mem_slotsOver (ascending : days.Pairwise (· < ·)) :
    x ∈ sim.slotsOver earlier days ↔ x.day ∈ days ∧ x.allocation ∈ sim.allocations ∧
      x.allocation.OccursOn x.day ∧ (x.allocation.frequency = .once →
        ∀ e, e ∈ earlier ∨ e ∈ days ∧ e < x.day → ¬ x.allocation.OccursOn e) := by
  induction days generalizing earlier with
  | nil => simp [slotsOver]
  | cons day rest ih =>
    obtain ⟨first, later⟩ := List.pairwise_cons.mp ascending
    have own : x ∈ (sim.usableOn earlier day).map (Slot.mk day) ↔
        x.day = day ∧ x.allocation ∈ sim.usableOn earlier day := by
      rw [List.mem_map]
      constructor
      · rintro ⟨a, usable, rfl⟩
        exact ⟨rfl, usable⟩
      · rintro ⟨rfl, usable⟩
        exact ⟨x.allocation, usable, rfl⟩
    rw [slotsOver, List.mem_append, own, mem_usableOn, ih later]
    constructor
    · rintro (⟨rfl, listed, occurs, unused⟩ | ⟨after, listed, occurs, unused⟩)
      · refine ⟨List.mem_cons_self, listed, occurs, fun once e before => ?_⟩
        rcases before with before | ⟨member, order⟩
        · exact unused once e before
        · rcases List.mem_cons.mp member with rfl | inRest
          · exact absurd order (Int.lt_irrefl _)
          · exact absurd order (Date.not_lt.mpr (Int.le_of_lt (first e inRest)))
      · refine ⟨List.mem_cons_of_mem _ after, listed, occurs, fun once e before => ?_⟩
        refine unused once e ?_
        rcases before with before | ⟨member, order⟩
        · exact .inl (List.mem_cons_of_mem _ before)
        · rcases List.mem_cons.mp member with rfl | inRest
          · exact .inl List.mem_cons_self
          · exact .inr ⟨inRest, order⟩
    · rintro ⟨member, listed, occurs, unused⟩
      rcases List.mem_cons.mp member with rfl | after
      · exact .inl ⟨rfl, listed, occurs, fun once e before => unused once e (.inl before)⟩
      · refine .inr ⟨after, listed, occurs, fun once e before => unused once e ?_⟩
        rcases before with before | ⟨inRest, order⟩
        · rcases List.mem_cons.mp before with rfl | before
          · exact .inr ⟨List.mem_cons_self, first _ after⟩
          · exact .inl before
        · exact .inr ⟨List.mem_cons_of_mem _ inRest, order⟩

/-- Listed day by day, the slots are in their order. -/
theorem slotsOver_ordered (ascending : days.Pairwise (· < ·))
    (strict : ∀ day, sim.allocations.Pairwise fun a b => Slot.Before ⟨day, a⟩ ⟨day, b⟩) :
    (sim.slotsOver earlier days).Pairwise Slot.Before := by
  induction days generalizing earlier with
  | nil => exact .nil
  | cons day rest ih =>
    obtain ⟨first, later⟩ := List.pairwise_cons.mp ascending
    rw [slotsOver]
    refine List.pairwise_append.mpr ⟨?_, ih later, fun x own y after => ?_⟩
    · exact List.pairwise_map.mpr ((strict day).filter _)
    · obtain ⟨a, -, rfl⟩ := List.mem_map.mp own
      exact .inl (first y.day ((mem_slotsOver later).mp after).1)

end Simulation

namespace Request
variable {r : Request} {h : UInt32}

/-- The slots of a request, listed day by day. -/
def slots (r : Request) (h : UInt32) : List Slot :=
  (r.simulation h).slotsOver [] ((r.simulation h).days r.firstDay)

/-- The list holds exactly the slots that the request offers, in their order. -/
theorem offersInOrder_slots (distinct : (r.allocations.map (·.id)).Nodup) :
    r.OffersInOrder h (r.slots h) := by
  have working : ∀ first, r.firstDay = some first → first ∉ r.nonWorkingDates := fun first search =>
    (NonWorkingDates.workingDayOnOrAfter?_eq_some.mp search).isFit
  have ascending : ((r.simulation h).days r.firstDay).Pairwise (· < ·) :=
    Simulation.days_ascending r.firstDay working
  have mem_days (e : Date) : e ∈ (r.simulation h).days r.firstDay ↔
      r.today ≤ e ∧ e ∉ r.nonWorkingDates ∧ r.today.daysTo e ≤ h.toNat := by
    rw [Simulation.mem_days working]
    constructor
    · rintro ⟨⟨first, search, order⟩, free, within⟩
      have reached := (NonWorkingDates.workingDayOnOrAfter?_eq_some.mp search).reached
      exact ⟨Date.le_trans reached order, free, within⟩
    · rintro ⟨coming, free, within⟩
      obtain ⟨first, search, isFirst⟩ := NonWorkingDates.exists_workingDayOnOrAfter coming free
      exact ⟨⟨first, search, isFirst.least e coming free⟩, free, within⟩
  refine ⟨Simulation.slotsOver_ordered ascending fun day => sortAllocations_strict day distinct,
    fun x => ?_⟩
  rw [slots, Simulation.mem_slotsOver ascending, mem_days, mem_simulation_allocations]
  constructor
  · rintro ⟨⟨coming, working, inHorizon⟩, listed, occurs, unused⟩
    refine ⟨listed, working, coming, inHorizon, occurs, fun once => ⟨coming, ⟨working, occurs⟩, ?_⟩⟩
    rintro e order ⟨free, before⟩
    refine Date.not_lt.mp fun early => unused once e (.inr ⟨?_, early⟩) before
    refine (mem_days e).mpr ⟨order, free, ?_⟩
    simp only [daysTo, lt_iff] at inHorizon early ⊢
    omega
  · rintro ⟨listed, working, coming, inHorizon, occurs, first⟩
    refine ⟨⟨coming, working, inHorizon⟩, listed, occurs, fun once e before other => ?_⟩
    rcases before with before | ⟨member, early⟩
    · cases before
    obtain ⟨order, free, -⟩ := (mem_days e).mp member
    exact Date.not_lt.mpr ((first once).least e order ⟨free, other⟩) early

end Request
end UnpaidWork
