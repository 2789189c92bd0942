import Mathlib
import UnpaidWork.Proofs.Conservation
import UnpaidWork.Proofs.Runs

/-!
A run on what an earlier run of the same day has made. Its request knows in
addition some of the appointments that the first plan created; they have new
ids and no outcome yet. Nothing of this changes what remains, and unless an
appointment was changed the schedule does not look at appointments at all. So
both runs settle the same required appointments, and what was recorded meets
exactly as many of them as the first plan created.
-/
namespace UnpaidWork

/-- The request after some appointments were made; they come after the others. -/
def Request.record (r : Request) (entries : List ExistingAppointment) : Request :=
  { r with existingAppointments := r.existingAppointments ++ entries }

/-- The entries are the appointments `made`, in some order, as they are known
once they were made: with ids that nothing else has, and without an outcome. -/
structure Records (existing : List ExistingAppointment) (made : List RequiredAppointment)
    (entries : List ExistingAppointment) : Prop where
  slots : (entries.map ExistingAppointment.slot?).Perm (made.map some)
  unresolved : ∀ a ∈ entries, a.isUnresolved
  distinct : (entries.map (·.id)).Nodup
  fresh : ∀ a ∈ entries, ∀ b ∈ existing, a.id ≠ b.id

section Settling
variable {existing entries : List ExistingAppointment} {taken taken' : List Int64}
variable {made required : List RequiredAppointment} {r : RequiredAppointment}

theorem mem_of_slots (same : (entries.map ExistingAppointment.slot?).Perm (made.map some)) :
    ∀ a ∈ entries, ∃ q ∈ made, a.slot? = some q := by
  intro a member
  have slot := same.subset (List.mem_map_of_mem member)
  obtain ⟨q, inMade, equal⟩ := List.mem_map.mp slot
  exact ⟨q, inMade, equal.symm⟩

/-- The slots of the entries that are not taken yet. -/
def openSlots (entries : List ExistingAppointment) (taken : List Int64) :
    List RequiredAppointment :=
  (entries.filter fun a => a.id ∉ taken).filterMap ExistingAppointment.slot?

theorem Records.openSlots_perm (recorded : Records existing made entries)
    (untaken : ∀ a ∈ entries, a.id ∉ taken) : (openSlots entries taken).Perm made := by
  have all : entries.filter (fun a => a.id ∉ taken) = entries :=
    List.filter_eq_self.mpr fun a member => by simp [untaken a member]
  have slots := recorded.slots.filterMap id
  rw [openSlots, all]
  simpa [List.filterMap_map] using slots

/-- With the entries, too, no two appointments have the same id. -/
theorem Records.ids_nodup (recorded : Records existing made entries)
    (distinct : (existing.map (·.id)).Nodup) : ((existing ++ entries).map (·.id)).Nodup := by
  rw [List.map_append]
  refine List.nodup_append'.mpr ⟨distinct, recorded.distinct, fun id old new => ?_⟩
  obtain ⟨b, present, rfl⟩ := List.mem_map.mp old
  obtain ⟨a, entry, same⟩ := List.mem_map.mp new
  exact recorded.fresh a entry b present same

theorem openSlots_cons_of_absent {id : Int64} (taken : List Int64)
    (absent : ∀ a ∈ entries, a.id ≠ id) :
    openSlots entries (id :: taken) = openSlots entries taken := by
  unfold openSlots
  congr 1
  refine List.filter_congr fun a member => ?_
  simp [absent a member]

theorem not_mem_openSlots (unmet : free? entries taken r = none) : r ∉ openSlots entries taken := by
  intro member
  obtain ⟨a, untaken, same⟩ := List.mem_filterMap.mp member
  obtain ⟨present, untaken⟩ := List.mem_filter.mp untaken
  have rejected := List.find?_eq_none.mp unmet a present
  rw [RequiredAppointment.isMetBy_iff.mpr same] at rejected
  simp_all

/-- Taking an entry closes its slot and no other. -/
theorem openSlots_perm_cons (distinct : (entries.map (·.id)).Nodup) {a : ExistingAppointment}
    (found : free? entries taken r = some a) :
    (openSlots entries taken).Perm (r :: openSlots entries (a.id :: taken)) := by
  obtain ⟨member, same, untaken⟩ := free?_eq_some found
  clear found
  induction entries with
  | nil => cases member
  | cons b rest ih =>
    obtain ⟨apart, distinctRest⟩ := List.nodup_cons.mp distinct
    have apart : ∀ c ∈ rest, c.id ≠ b.id := fun c inRest equal =>
      apart (List.mem_map.mpr ⟨c, inRest, equal⟩)
    rcases List.mem_cons.mp member with rfl | later
    · have opened : openSlots (a :: rest) taken = r :: openSlots rest taken := by
        simp [openSlots, untaken, same]
      have closed : openSlots (a :: rest) (a.id :: taken) = openSlots rest (a.id :: taken) := by
        simp [openSlots]
      rw [opened, closed, openSlots_cons_of_absent taken apart]
    · have different : b.id ≠ a.id := fun equal => apart a later equal.symm
      have perm := ih distinctRest later
      by_cases closed : b.id ∈ taken
      · simpa [openSlots, closed] using perm
      · cases slot : b.slot? with
        | none => simpa [openSlots, closed, different, slot] using perm
        | some q =>
          have grown : (q :: openSlots rest taken).Perm
              (r :: q :: openSlots rest (a.id :: taken)) :=
            (perm.cons q).trans (.swap r q _)
          simpa [openSlots, closed, different, slot] using grown

/-- Entries at the end are looked at last, and ids that no existing appointment
has do not matter to the others. -/
theorem free?_append (entries : List ExistingAppointment) (r : RequiredAppointment)
    (agree : ∀ b ∈ existing, b.id ∈ taken' ↔ b.id ∈ taken) :
    free? (existing ++ entries) taken' r =
      (free? existing taken r).or (free? entries taken' r) := by
  have same : free? existing taken' r = free? existing taken r :=
    free?_congr fun b present _ => agree b present
  rw [← same]
  exact List.find?_append

/-- Entries that come after the others meet what the others leave: of what would
be created without them, exactly their open slots are not. -/
theorem missing_append_perm (distinct : (entries.map (·.id)).Nodup)
    (fresh : ∀ a ∈ entries, ∀ b ∈ existing, a.id ≠ b.id)
    (agree : ∀ b ∈ existing, b.id ∈ taken' ↔ b.id ∈ taken)
    (within : (openSlots entries taken').Subperm (missing existing taken required)) :
    (missing (existing ++ entries) taken' required ++ openSlots entries taken').Perm
      (missing existing taken required) := by
  induction required generalizing taken taken' with
  | nil =>
    have nothing : openSlots entries taken' = [] := List.subperm_nil.mp within
    rw [nothing]
    exact .refl _
  | cons r rest ih =>
    have split := free?_append entries r agree
    cases old : free? existing taken r with
    | some b =>
      obtain ⟨present, -, -⟩ := free?_eq_some old
      have unaffected := openSlots_cons_of_absent taken' fun a member => fresh a member b present
      rw [old, Option.some_or] at split
      rw [missing_cons_of_some old] at within ⊢
      rw [missing_cons_of_some split, ← unaffected]
      refine ih (fun c member => ?_) (unaffected ▸ within)
      rw [List.mem_cons, List.mem_cons, agree c member]
    | none =>
      rw [old, Option.none_or] at split
      rw [missing_cons_of_none old] at within ⊢
      cases recorded : free? entries taken' r with
      | none =>
        rw [recorded] at split
        rw [missing_cons_of_none split, List.cons_append]
        -- No open slot is `r`, so all of them are among the rest.
        have others := within.erase r
        rw [List.erase_of_not_mem (not_mem_openSlots recorded), List.erase_cons_head] at others
        exact (ih agree others).cons r
      | some a =>
        obtain ⟨member, -, -⟩ := free?_eq_some recorded
        have closes := openSlots_perm_cons distinct recorded
        rw [recorded] at split
        rw [missing_cons_of_some split]
        have fewer := (List.subperm_cons r).mp (closes.symm.subperm.trans within)
        have agree : ∀ b ∈ existing, b.id ∈ a.id :: taken' ↔ b.id ∈ taken := by
          intro b present
          rw [List.mem_cons, or_iff_right (fresh a member b present).symm, agree b present]
        have others := ih agree fewer
        exact (closes.append_left _).trans (List.perm_middle.trans (others.cons r))

end Settling

/-! The second run of a day -/

/-- Appointments without an outcome from today on are neither credited nor
counted as worked. -/
theorem remainingRequirement_append {today : Date} {requirement : Duration}
    {existing entries : List ExistingAppointment} (unresolved : ∀ a ∈ entries, a.isUnresolved)
    (coming : ∀ a ∈ entries, today ≤ a.date) :
    remainingRequirement today requirement (existing ++ entries) =
      remainingRequirement today requirement existing := by
  have notAssumed : entries.filter (fun a => a.isUnresolved && a.date < today) = [] := by
    refine List.filter_eq_nil_iff.mpr fun a member => ?_
    have := coming a member
    simp only [Bool.and_eq_true, decide_eq_true_eq, Date.le_iff, Date.lt_iff] at *
    omega
  have notCredited : entries.filter (·.hasOutcome) = [] := by
    refine List.filter_eq_nil_iff.mpr fun a member => ?_
    simpa [ExistingAppointment.isUnresolved] using unresolved a member
  simp [remainingRequirement, assumedLengths, credits, List.filter_append, notAssumed, notCredited]

namespace Simulation

/-- The same simulation once some appointments were made. -/
def record (sim : Simulation) (entries : List ExistingAppointment) : Simulation :=
  { sim with request := sim.request.record entries }

variable {sim : Simulation} {start : Option Date} {day : Date} {p q final : Progress}
variable {entries : List ExistingAppointment}

/-- Unless an appointment was changed, what was made is not looked at. -/
theorem Passes.record (unchanged : sim.request.trigger.isAppointmentChange = false)
    (passed : sim.Passes day p q) : (sim.record entries).Passes day p q := by
  have free : (sim.record entries).booked day = [] := booked_eq_nil unchanged
  cases passed with
  | idle unusable => exact .idle unusable
  | keeps _ bookings => exact absurd (booked_eq_nil unchanged) bookings
  | grants usable _ granted => exact .grants usable free granted

theorem GoesOn.record_iff : (sim.record entries).GoesOn day p ↔ sim.GoesOn day p := by
  rw [goesOn_iff, goesOn_iff]
  rfl

theorem Reaches.record (unchanged : sim.request.trigger.isAppointmentChange = false)
    (reached : sim.Reaches start p final) : (sim.record entries).Reaches start p final := by
  induction reached with
  | calendarEnds => exact .calendarEnds
  | stops ended => exact .stops fun goesOn => ended (GoesOn.record_iff.mp goesOn)
  | passes goesOn passed _ ih =>
    exact .passes (GoesOn.record_iff.mpr goesOn) (passed.record unchanged) ih

end Simulation

namespace Request
variable {r : Request} {h : UInt32} {remaining : Duration} {s : Schedule} {plan : Plan}
variable {made : List RequiredAppointment} {entries : List ExistingAppointment}

/-- What a plan creates is dated today or later. -/
theorem creations_coming (scheduled : (r.schedule h remaining).result = .ok s) :
    ∀ q ∈ (r.plan s).creations, r.today ≤ q.date := by
  intro q created
  rw [creations_plan] at created
  exact (schedule_coming scheduled).1 q ((settle_settled _ _ _).part.subset created)

theorem entries_coming (scheduled : (r.schedule h remaining).result = .ok s)
    (part : ∀ q ∈ made, q ∈ (r.plan s).creations)
    (recorded : Records r.existingAppointments made entries) : ∀ a ∈ entries, r.today ≤ a.date := by
  intro a member
  obtain ⟨q, inMade, same⟩ := mem_of_slots recorded.slots a member
  rw [(RequiredAppointment.of_slot same).1]
  exact creations_coming scheduled q (part q inMade)

theorem remaining_record (plans : r.Plans h remaining s)
    (part : ∀ q ∈ made, q ∈ (r.plan s).creations)
    (recorded : Records r.existingAppointments made entries) :
    remainingRequirement (r.record entries).today (r.record entries).requirement
        (r.record entries).existingAppointments =
      remainingRequirement r.today r.requirement r.existingAppointments := by
  have coming := entries_coming plans.scheduled part recorded
  exact remainingRequirement_append recorded.unresolved coming

/-- Of the same schedule, a plan creates what was not made before. -/
theorem creations_record (scheduled : (r.schedule h remaining).result = .ok s)
    (part : made.Subperm (r.plan s).creations)
    (recorded : Records r.existingAppointments made entries) :
    (((r.record entries).plan s).creations ++ made).Perm (r.plan s).creations := by
  have untaken : ∀ a ∈ entries, a.id ∉ forcedIds s := by
    intro a member forced
    obtain ⟨b, kept, same⟩ := List.mem_map.mp forced
    have coming := (schedule_coming scheduled).2.subset kept
    exact recorded.fresh a member b (List.mem_filter.mp coming).1 same.symm
  have slots := recorded.openSlots_perm untaken
  rw [creations_plan] at part ⊢
  rw [creations_plan]
  exact (slots.symm.append_left _).trans (missing_append_perm recorded.distinct recorded.fresh
    (fun _ _ => Iff.rfl) (slots.subperm.trans part))

/-- Unless an appointment was changed, the second run follows the same schedule
and creates what the first one did not get to. -/
theorem plans_record (unchanged : r.trigger.isAppointmentChange = false)
    (plans : r.Plans h remaining s) (part : made.Subperm (r.plan s).creations)
    (recorded : Records r.existingAppointments made entries) :
    (r.record entries).Plans h remaining s ∧
      (((r.record entries).plan s).creations ++ made).Perm (r.plan s).creations := by
  refine ⟨⟨?_, plans.positive, ?_, plans.told⟩, creations_record plans.scheduled part recorded⟩
  · rw [remaining_record plans part.subset recorded, plans.left]
  · obtain ⟨p, reached, rfl⟩ := schedule_eq_ok.mp plans.scheduled
    exact schedule_eq_ok.mpr ⟨p, reached.record unchanged, rfl⟩

/-- A retry after a run that failed half way. Whichever of the planned
appointments were made, the second plan creates precisely the others. -/
theorem retry_creates_the_rest (unchanged : r.trigger.isAppointmentChange = false)
    (produced : (r.producePlan h).result = .ok (.existingAppointmentsInsufficient plan))
    (part : made.Sublist plan.creations)
    (recorded : Records r.existingAppointments made entries) :
    ∃ remaining s, r.Plans h remaining s ∧ r.plan s = plan ∧
      (r.record entries).Plans h remaining s ∧
      ((r.record entries).producePlan h).result = .ok ((r.record entries).plan s).verdict ∧
      (((r.record entries).plan s).creations ++ made).Perm plan.creations ∧
      ((r.record entries).plan s).shortfall = plan.shortfall := by
  obtain ⟨remaining, s, plans, rfl⟩ := plans_of_insufficient produced
  obtain ⟨again, creates⟩ := plans_record unchanged plans part.subperm recorded
  exact ⟨remaining, s, plans, rfl, again, producePlan_of_plans again, creates, rfl⟩

/-- Of two Mondays only the second was made; the retry creates the first. -/
theorem retry_creates_the_first_monday :
    let r := Sample.request .manual .weekly Sample.fourHours []
    let first := Sample.slot Sample.monday
    let second := Sample.slot Sample.nextMonday
    let entries := [Sample.booking 7 Sample.nextMonday]
    ∃ remaining s, r.Plans 365 remaining s ∧ r.plan s = ⟨[.create first, .create second], .zero⟩ ∧
      (r.record entries).Plans 365 remaining s ∧
      ((r.record entries).producePlan 365).result = .ok ((r.record entries).plan s).verdict ∧
      (((r.record entries).plan s).creations ++ [second]).Perm [first, second] ∧
      ((r.record entries).plan s).shortfall = .zero := by
  intro r first second entries
  let plan : Plan := ⟨[.create first, .create second], .zero⟩
  have produced : (r.producePlan 365).result = .ok (.existingAppointmentsInsufficient plan) := by
    cbv
  have part : [second].Sublist plan.creations := by decide
  have recorded : Records r.existingAppointments [second] entries :=
    ⟨.refl _, by decide, by decide, by decide⟩
  exact retry_creates_the_rest rfl produced part recorded

end Request
end UnpaidWork
