import UnpaidWork.Proofs.Walk
import UnpaidWork.Proofs.Settlement

/-!
A run seen from its result. A run that gives an outcome found the requirement
met, or it planned for a positive remaining time and its outcome is the verdict
on the plan.
-/
namespace UnpaidWork

/-- What a plan amounts to. -/
def Plan.verdict (p : Plan) : Outcome :=
  if p.hasCreations = false ∧ p.hasShortfall = false then .existingAppointmentsSufficient
  else .existingAppointmentsInsufficient p

namespace Plan
variable {p : Plan}

theorem result_outcome (p : Plan) : p.outcome.result = .ok p.verdict := by
  unfold outcome verdict
  cases p.hasCreations <;> cases p.hasShortfall <;> rfl

theorem hasCreations_eq_false : p.hasCreations = false ↔ p.creations = [] := by
  simp [hasCreations]

theorem hasShortfall_eq_false : p.hasShortfall = false ↔ p.shortfall.nanos ≤ 0 := by
  simp only [hasShortfall, decide_eq_false_iff_not, Duration.lt_iff, Duration.nanos_zero]
  omega

theorem verdict_eq_sufficient : p.verdict = .existingAppointmentsSufficient ↔
    p.creations = [] ∧ p.shortfall.nanos ≤ 0 := by
  rw [← hasCreations_eq_false, ← hasShortfall_eq_false]
  unfold verdict
  split <;> simp_all

theorem verdict_eq_insufficient {q : Plan} :
    p.verdict = .existingAppointmentsInsufficient q ↔
      ¬ (p.creations = [] ∧ p.shortfall.nanos ≤ 0) ∧ p = q := by
  rw [← hasCreations_eq_false, ← hasShortfall_eq_false]
  unfold verdict
  split <;> simp_all

end Plan

/-- A run of the request plans: a positive time remains, `s` is the schedule for
it, and the time that this schedule fills can be told. -/
structure Request.Plans (r : Request) (h : UInt32) (remaining : Duration) (s : Schedule) :
    Prop where
  left : (remainingRequirement r.today r.requirement r.existingAppointments).result = .ok remaining
  positive : 0 < remaining.nanos
  scheduled : (r.schedule h remaining).result = .ok s
  told : ∃ total, s.totalScheduled = .ok total

namespace Request
variable {r : Request} {h : UInt32} {remaining : Duration} {s : Schedule} {o : Outcome}

theorem planRemaining_eq_ok : (r.planRemaining h remaining).result = .ok o ↔
    ∃ s, (r.schedule h remaining).result = .ok s ∧ (∃ total, s.totalScheduled = .ok total) ∧
      (r.plan s).verdict = o := by
  simp only [planRemaining, Traced.result_bind, Traced.result_tell, Traced.result_tellAll,
    Traced.result_attempt, Plan.result_outcome, bind_eq_ok]
  constructor
  · rintro ⟨s, scheduled, total, told, -, -, -, -, verdict⟩
    cases verdict
    exact ⟨s, scheduled, ⟨total, told⟩, rfl⟩
  · rintro ⟨s, scheduled, ⟨total, told⟩, rfl⟩
    exact ⟨s, scheduled, total, told, (), trivial, (), trivial, rfl⟩

theorem producePlan_of_left
    (left : (remainingRequirement r.today r.requirement r.existingAppointments).result =
      .ok remaining) :
    (r.producePlan h).result =
      if remaining.nanos ≤ 0 then .ok .requirementAlreadySatisfied
      else (r.planRemaining h remaining).result := by
  simp only [producePlan, Traced.result_bind, Traced.result_tell, left, Except.bind]
  by_cases done : remaining.nanos ≤ 0
  · have met : remaining ≤ .zero := done
    rw [if_pos met, if_pos done]
    rfl
  · have unmet : ¬ remaining ≤ .zero := done
    rw [if_neg unmet, if_neg done]

/-- A run that plans gives the verdict on its plan. -/
theorem producePlan_of_plans (plans : r.Plans h remaining s) :
    (r.producePlan h).result = .ok (r.plan s).verdict := by
  have unmet : ¬ remaining.nanos ≤ 0 := Int.not_le.mpr plans.positive
  rw [producePlan_of_left plans.left, if_neg unmet]
  exact planRemaining_eq_ok.mpr ⟨s, plans.scheduled, plans.told, rfl⟩

/-- A run that gives an outcome plans if there is something left to do. -/
theorem plans_of_left
    (left : (remainingRequirement r.today r.requirement r.existingAppointments).result =
      .ok remaining)
    (positive : 0 < remaining.nanos) (produced : (r.producePlan h).result = .ok o) :
    ∃ s, r.Plans h remaining s ∧ (r.plan s).verdict = o := by
  rw [producePlan_of_left left, if_neg (Int.not_le.mpr positive)] at produced
  obtain ⟨s, scheduled, told, verdict⟩ := planRemaining_eq_ok.mp produced
  exact ⟨s, ⟨left, positive, scheduled, told⟩, verdict⟩

/-- A run that gives an outcome found the requirement met or planned. -/
theorem plans_of_producePlan (produced : (r.producePlan h).result = .ok o) :
    o = .requirementAlreadySatisfied ∨
      ∃ remaining s, r.Plans h remaining s ∧ (r.plan s).verdict = o := by
  cases left : (remainingRequirement r.today r.requirement r.existingAppointments).result with
  | error cause =>
    simp only [producePlan, Traced.result_bind, left] at produced
    cases produced
  | ok remaining =>
    by_cases met : remaining.nanos ≤ 0
    · rw [producePlan_of_left left, if_pos met] at produced
      cases produced
      exact .inl rfl
    · exact .inr ⟨remaining, plans_of_left left (Int.not_le.mp met) produced⟩

theorem plans_of_insufficient {plan : Plan}
    (produced : (r.producePlan h).result = .ok (.existingAppointmentsInsufficient plan)) :
    ∃ remaining s, r.Plans h remaining s ∧ r.plan s = plan := by
  rcases plans_of_producePlan produced with done | ⟨remaining, s, plans, verdict⟩
  · cases done
  · exact ⟨remaining, s, plans, (Plan.verdict_eq_insufficient.mp verdict).2⟩

/-! The parts of a plan -/

/-- The ids of the forced retentions, which meet no required appointment. -/
def forcedIds (s : Schedule) : List Int64 := s.forcedRetentions.map (·.id)

/-- The coming appointments that a plan retains though it needs none of them. -/
def surplus (r : Request) (s : Schedule) : List ExistingAppointment :=
  r.upcomingUnresolved.filter fun a =>
    !(settle r.existingAppointments (forcedIds s) s.requiredAppointments).2.contains a.id

theorem plan_eq (r : Request) (s : Schedule) : r.plan s =
    ⟨(settle r.existingAppointments (forcedIds s) s.requiredAppointments).1 ++
      s.forcedRetentions.map (Action.retain · .forced) ++
      (r.surplus s).map (Action.retain · .surplus), s.shortfall⟩ := rfl

theorem creations_plan (r : Request) (s : Schedule) : (r.plan s).creations =
    missing r.existingAppointments (forcedIds s) s.requiredAppointments := by
  have none_created (items : List ExistingAppointment) (reason : RetainReason) :
      (items.map (Action.retain · reason)).filterMap Action.created? = [] := by
    simp [List.filterMap_map, Function.comp_def, Action.created?]
  rw [plan_eq, Plan.creations, List.filterMap_append, List.filterMap_append, none_created,
    none_created, List.append_nil, List.append_nil]
  rfl

theorem retentions_plan (r : Request) (s : Schedule) : (r.plan s).retentions =
    (meeting r.existingAppointments (forcedIds s) s.requiredAppointments).map
        (fun a => (a, .required)) ++
      s.forcedRetentions.map (fun a => (a, .forced)) ++
      (r.surplus s).map (fun a => (a, .surplus)) := by
  have all_retained (items : List ExistingAppointment) (reason : RetainReason) :
      (items.map (Action.retain · reason)).filterMap Action.retained? =
        items.map fun a => (a, reason) := by
    simp [List.filterMap_map, Function.comp_def, Action.retained?]
  rw [plan_eq, Plan.retentions, List.filterMap_append, List.filterMap_append, all_retained,
    all_retained, retained_settle]

theorem shortfall_plan (r : Request) (s : Schedule) : (r.plan s).shortfall = s.shortfall := rfl

end Request
end UnpaidWork
