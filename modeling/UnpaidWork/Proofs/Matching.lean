import UnpaidWork.Proofs.Accounting
import UnpaidWork.Proofs.Recording

/-!
How a plan accounts for the existing appointments. Required appointments are
settled one after the other, and each takes the first existing one that fits.
Which of several equal ones it takes does not matter: of every slot as many
appointments are met as the schedule requires and the case has open, so no other
choice leaves fewer to create. Every coming appointment is retained, and once.
-/
namespace UnpaidWork

/-- An action settles a required appointment: it creates it, or retains as
required an existing one that is exactly it. -/
inductive Action.Settles (existing : List ExistingAppointment) (r : RequiredAppointment) :
    Action → Prop
  | creates : Settles existing r (.create r)
  | retains {a : ExistingAppointment} (present : a ∈ existing) (same : r.isMetBy a) :
      Settles existing r (.retain a .required)

section Settling
variable {existing used : List ExistingAppointment} {taken : List Int64}
variable {required made : List RequiredAppointment} {q r : RequiredAppointment}

/-- Each required appointment is settled by the action in its place. -/
theorem settle_settles (existing : List ExistingAppointment) (taken : List Int64)
    (required : List RequiredAppointment) :
    List.Forall₂ (Action.Settles existing) required (settle existing taken required).1 := by
  induction required generalizing taken with
  | nil => exact .nil
  | cons r rest ih =>
    cases found : free? existing taken r with
    | none =>
      rw [settle_created found]
      exact .cons .creates (ih taken)
    | some a =>
      obtain ⟨present, same, -⟩ := free?_eq_some found
      rw [settle_met found]
      exact .cons (.retains present (RequiredAppointment.isMetBy_iff.mpr same)) (ih (a.id :: taken))

/-- Of every slot as many appointments are met as are required and open. -/
theorem count_meeting (distinct : (existing.map (·.id)).Nodup) (taken : List Int64)
    (required : List RequiredAppointment) (q : RequiredAppointment) :
    ((meeting existing taken required).map ExistingAppointment.slot?).count (some q) =
      min (required.count q) ((openSlots existing taken).count q) := by
  induction required generalizing taken with
  | nil => simp [meeting, settle]
  | cons r rest ih =>
    cases found : free? existing taken r with
    | none =>
      have none_open := List.count_eq_zero_of_not_mem (not_mem_openSlots found)
      rw [meeting_cons_of_none found, ih, List.count_cons]
      by_cases same : r = q
      · subst same
        rw [none_open, Nat.min_zero, Nat.min_zero]
      · simp [same]
    | some a =>
      obtain ⟨-, slot, -⟩ := free?_eq_some found
      have opened := (openSlots_perm_cons distinct found).count_eq q
      rw [meeting_cons_of_some found, List.map_cons, slot, List.count_cons, ih, opened,
        List.count_cons, List.count_cons]
      by_cases same : r = q
      · simp only [same, beq_self_eq_true, if_true]
        omega
      · simp [same]

theorem count_map_some (slots : List RequiredAppointment) (q : RequiredAppointment) :
    (slots.map some).count (some q) = slots.count q :=
  List.count_map_of_injective slots some (Option.some_injective _) q

/-- Of every slot as many appointments are created as are required beyond those open. -/
theorem count_missing (distinct : (existing.map (·.id)).Nodup) (taken : List Int64)
    (required : List RequiredAppointment) (q : RequiredAppointment) :
    (missing existing taken required).count q =
      required.count q - (openSlots existing taken).count q := by
  have all : ((missing existing taken required).map some ++
      (meeting existing taken required).map ExistingAppointment.slot?).count (some q) =
        (required.map some).count (some q) :=
    (slots_settle_perm taken required).count_eq _
  rw [List.count_append, count_map_some, count_map_some, count_meeting distinct] at all
  omega

theorem count_map_slot (items : List ExistingAppointment) (slot : Option RequiredAppointment) :
    (items.map ExistingAppointment.slot?).count slot = items.countP fun a => a.slot? = slot := by
  rw [List.count, List.countP_map]
  simp [Function.comp_def, beq_eq_decide]

theorem count_openSlots (existing : List ExistingAppointment) (taken : List Int64)
    (q : RequiredAppointment) : (openSlots existing taken).count q =
      ((existing.filter fun a => a.id ∉ taken).map ExistingAppointment.slot?).count (some q) := by
  rw [openSlots, List.count_filterMap, List.count, List.countP_map]
  rfl

/-- A way to come by required appointments: some are made, and the others are met
by existing appointments out of those that are free, each of them used once. -/
structure Provides (free : List ExistingAppointment) (required made : List RequiredAppointment)
    (used : List ExistingAppointment) : Prop where
  part : used.Subperm free
  slots : (made.map some ++ used.map ExistingAppointment.slot?).Perm (required.map some)

theorem settle_provides (existing : List ExistingAppointment) (taken : List Int64)
    (required : List RequiredAppointment) :
    Provides (existing.filter fun a => a.id ∉ taken) required (missing existing taken required)
      (meeting existing taken required) := by
  refine ⟨?_, slots_settle_perm taken required⟩
  have settled := settle_settled existing taken required
  refine List.subperm_of_subset (settled.distinct.of_map _) fun a met => ?_
  exact List.mem_filter.mpr ⟨(settled.meets a met).1, by simpa using settled.untaken a met⟩

/-- However required appointments are come by, all that a plan creates has to be made. -/
theorem Provides.missing_subperm (distinct : (existing.map (·.id)).Nodup)
    (provides : Provides (existing.filter fun a => a.id ∉ taken) required made used) :
    (missing existing taken required).Subperm made := by
  refine List.subperm_ext_iff.mpr fun q _ => ?_
  obtain ⟨part, same, within⟩ := provides.part
  have all := provides.slots.count_eq (some q)
  have few := (within.map ExistingAppointment.slot?).count_le (some q)
  rw [(same.map ExistingAppointment.slot?).count_eq, ← count_openSlots] at few
  rw [List.count_append, count_map_some, count_map_some] at all
  rw [count_missing distinct]
  omega

end Settling

namespace Request
variable {r : Request} {h : UInt32} {remaining : Duration} {s : Schedule}

/-- The existing appointments that a schedule does not force. -/
def unforced (r : Request) (s : Schedule) : List ExistingAppointment :=
  r.existingAppointments.filter fun a => a ∉ s.forcedRetentions

/-- A plan accounts for a schedule: for all that it requires and forces, and for
every existing appointment that is still to come. -/
structure AccountsFor (r : Request) (s : Schedule) (plan : Plan) : Prop where
  /-- First each required appointment is settled in its turn, then follow the
  forced retentions, and then the surplus in the order of the request. -/
  order : ∃ (settled : List Action) (surplus : List ExistingAppointment),
    plan.actions = settled ++ s.forcedRetentions.map (Action.retain · .forced) ++
      surplus.map (Action.retain · .surplus) ∧
    List.Forall₂ (Action.Settles r.existingAppointments) s.requiredAppointments settled ∧
    surplus.Sublist r.upcomingUnresolved
  shortfall : plan.shortfall = s.shortfall
  /-- No appointment is retained twice. -/
  once : (plan.retentions.map Prod.fst).Nodup
  /-- What is retained exists and is dated today or later. -/
  coming : ∀ entry ∈ plan.retentions, entry.1 ∈ r.existingAppointments ∧ r.today ≤ entry.1.date
  /-- What is still to come is retained, for exactly one reason. -/
  retained : ∀ a ∈ r.upcomingUnresolved, ∃! reason, (a, reason) ∈ plan.retentions
  /-- Of every slot as many appointments are retained as required as the schedule
  requires, or as there are unforced ones if these are fewer. What comes from no
  allocation has no slot, and none of it is retained as required. -/
  met : ∀ slot : Option RequiredAppointment,
    plan.retentions.countP (fun entry => entry.2 = .required ∧ entry.1.slot? = slot) =
      min ((s.requiredAppointments.map some).count slot)
        ((r.unforced s).countP fun a => a.slot? = slot)
  /-- What the plan creates and retains provides what the schedule requires. -/
  provides : ∃ used, Provides (r.unforced s) s.requiredAppointments plan.creations used
  /-- Whatever else provides it makes at least what the plan creates. -/
  fewest : ∀ made used, Provides (r.unforced s) s.requiredAppointments made used →
    plan.creations.Subperm made

/-- An appointment is forced exactly if its id is that of a forced one. -/
theorem unforced_eq (distinct : (r.existingAppointments.map (·.id)).Nodup)
    (scheduled : (r.schedule h remaining).result = .ok s) :
    r.unforced s = r.existingAppointments.filter fun a => a.id ∉ forcedIds s := by
  refine List.filter_congr fun a present => decide_eq_decide.mpr (not_congr ?_)
  constructor
  · exact fun forced => List.mem_map_of_mem forced
  · intro taken
    obtain ⟨b, forced, same⟩ := List.mem_map.mp taken
    have known := (List.mem_filter.mp ((schedule_coming scheduled).2.subset forced)).1
    rwa [← List.inj_on_of_nodup_map distinct known present same]

theorem map_fst_retentions (r : Request) (s : Schedule) :
    (r.plan s).retentions.map Prod.fst = r.needed s ++ r.surplus s := by
  rw [retentions_plan, needed]
  simp [Function.comp_def]

theorem retentions_nodup (distinct : (r.existingAppointments.map (·.id)).Nodup)
    (scheduled : (r.schedule h remaining).result = .ok s) :
    ((r.plan s).retentions.map Prod.fst).Nodup := by
  have upcoming : r.upcomingUnresolved.Nodup := (distinct.of_map _).filter _
  rw [map_fst_retentions]
  exact List.nodup_append'.mpr
    ⟨needed_nodup distinct scheduled, upcoming.filter _, needed_disjoint_surplus r s⟩

/-- Every appointment to come is retained, and the reason for it is the only one. -/
theorem existsUnique_reason (distinct : (r.existingAppointments.map (·.id)).Nodup)
    (scheduled : (r.schedule h remaining).result = .ok s) {a : ExistingAppointment}
    (coming : a ∈ r.upcomingUnresolved) : ∃! reason, (a, reason) ∈ (r.plan s).retentions := by
  have member : a ∈ (r.plan s).retentions.map Prod.fst := by
    rw [map_fst_retentions, List.mem_append]
    refine (List.mem_append.mp ((upcoming_perm distinct scheduled).subset coming)).imp_left ?_
    exact fun needed => (List.mem_filter.mp needed).1
  obtain ⟨⟨_, reason⟩, entry, rfl⟩ := List.mem_map.mp member
  refine ⟨reason, entry, fun other again => ?_⟩
  have once := retentions_nodup distinct scheduled
  exact (Prod.mk.inj (List.inj_on_of_nodup_map once again entry rfl)).2

theorem countP_retained_required (r : Request) (s : Schedule) (slot : Option RequiredAppointment) :
    (r.plan s).retentions.countP (fun entry => entry.2 = .required ∧ entry.1.slot? = slot) =
      ((meeting r.existingAppointments (forcedIds s) s.requiredAppointments).map
        ExistingAppointment.slot?).count slot := by
  rw [retentions_plan, count_map_slot]
  simp [List.countP_map, Function.comp_def]

/-- Retained as required are as many as are required and not forced, slot by slot. -/
theorem countP_met (distinct : (r.existingAppointments.map (·.id)).Nodup)
    (scheduled : (r.schedule h remaining).result = .ok s) (slot : Option RequiredAppointment) :
    (r.plan s).retentions.countP (fun entry => entry.2 = .required ∧ entry.1.slot? = slot) =
      min ((s.requiredAppointments.map some).count slot)
        ((r.unforced s).countP fun a => a.slot? = slot) := by
  rw [countP_retained_required]
  cases slot with
  | none =>
    have required : (s.requiredAppointments.map some).count none = 0 := by
      simp [List.count_eq_zero]
    have met : ((meeting r.existingAppointments (forcedIds s) s.requiredAppointments).map
        ExistingAppointment.slot?).count none = 0 := by
      refine List.count_eq_zero.mpr fun member => ?_
      obtain ⟨a, inMet, nothing⟩ := List.mem_map.mp member
      obtain ⟨-, q, -, slot⟩ := (settle_settled _ _ _).meets a inMet
      rw [nothing] at slot
      cases slot
    rw [required, met, Nat.zero_min]
  | some q =>
    rw [count_meeting distinct, count_map_some, count_openSlots, count_map_slot,
      unforced_eq distinct scheduled]

/-- The plan for a schedule accounts for all of it, and creates as little as it can. -/
theorem plan_accounts_for (distinct : (r.existingAppointments.map (·.id)).Nodup)
    (scheduled : (r.schedule h remaining).result = .ok s) : r.AccountsFor s (r.plan s) where
  order := ⟨_, r.surplus s, congrArg Plan.actions (plan_eq r s), settle_settles _ _ _,
    List.filter_sublist⟩
  shortfall := shortfall_plan r s
  once := retentions_nodup distinct scheduled
  coming := by
    intro entry member
    have retained := List.mem_map_of_mem (f := Prod.fst) member
    rw [map_fst_retentions, List.mem_append] at retained
    rcases retained with needed | extra
    · exact mem_existing_of_needed scheduled entry.1 needed
    · obtain ⟨known, coming⟩ := List.mem_filter.mp (List.mem_filter.mp extra).1
      simp only [Bool.and_eq_true, decide_eq_true_eq] at coming
      exact ⟨known, coming.2⟩
  retained := fun a coming => existsUnique_reason distinct scheduled coming
  met := countP_met distinct scheduled
  provides := by
    rw [creations_plan, unforced_eq distinct scheduled]
    exact ⟨_, settle_provides _ _ _⟩
  fewest := by
    intro made used provides
    rw [unforced_eq distinct scheduled] at provides
    rw [creations_plan]
    exact provides.missing_subperm distinct

/-- Two Mondays are required. The first is booked twice, so that one booking is
surplus, and the second is created. -/
theorem second_booking_is_surplus :
    let booked := [Sample.booking 9 Sample.monday, Sample.booking 8 Sample.monday]
    let r := Sample.request .manual .weekly Sample.fourHours booked
    let s : Schedule := ⟨[Sample.slot Sample.monday, Sample.slot Sample.nextMonday], [], .zero⟩
    let plan : Plan := ⟨[.retain (Sample.booking 9 Sample.monday) .required,
      .create (Sample.slot Sample.nextMonday),
      .retain (Sample.booking 8 Sample.monday) .surplus], .zero⟩
    (r.schedule 365 Sample.fourHours).result = .ok s ∧ r.plan s = plan ∧
      r.AccountsFor s plan := by
  intro booked r s plan
  have scheduled : (r.schedule 365 Sample.fourHours).result = .ok s := by cbv
  have planned : r.plan s = plan := by cbv
  exact ⟨scheduled, planned, planned ▸ plan_accounts_for (by decide) scheduled⟩

end Request
end UnpaidWork
