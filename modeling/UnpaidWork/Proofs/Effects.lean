import Mathlib.Data.String.Basic
import UnpaidWork.Proofs.Admission

/-!
What a run asks of its surroundings, whatever they answer. It fetches once; it
reports once, unless it has nothing to plan on; and the orders of a real run are
one for each project, in ascending order, each with what the plan creates there.
They are placed up to the first that is refused. A procedure runs like its parts
one after the other, so each part is described by itself.
-/
namespace UnpaidWork

/-! Runs of parts -/

namespace Run
variable {σ α β : Type}

/-- Goes on with the result of a run in the state that it leaves, unless it broke off. -/
def andThen (run : Run σ α) (next : α → σ → Run σ β) : Run σ β :=
  match run.result with
  | .ok value =>
    let later := next value run.state
    ⟨later.state, run.calls ++ later.calls, run.events ++ later.events, later.result⟩
  | .error cause => ⟨run.state, run.calls, run.events, .error cause⟩

/-- What a run leaves behind, its log apart. -/
structure Leaves (run : Run σ α) (after : σ) (calls : List Call) (result : Except Overflow α) :
    Prop where
  state : run.state = after
  calls : run.calls = calls
  result : run.result = result

theorem andThen_afterTelling (events : List Event) (run : Run σ α) (next : α → σ → Run σ β) :
    (run.afterTelling events).andThen next = (run.andThen next).afterTelling events := by
  unfold andThen afterTelling
  cases run.result <;> simp

theorem andThen_afterCall (call : Call) (run : Run σ α) (next : α → σ → Run σ β) :
    (run.afterCall call).andThen next = (run.andThen next).afterCall call := by
  unfold andThen afterCall
  cases run.result <;> simp

end Run

namespace Procedure
variable {σ α β : Type} (around : Surroundings σ)

/-- Two procedures one after the other run like the first and then the second. -/
theorem runIn_bind (procedure : Procedure α) (f : α → Procedure β) (state : σ) :
    (procedure >>= f).runIn around state =
      (procedure.runIn around state).andThen fun value state => (f value).runIn around state := by
  change (andThen f procedure).runIn around state = _
  induction procedure generalizing state with
  | finish result => rfl
  | breakOff cause => rfl
  | tell event next ih => simp only [andThen, runIn, ih, Run.andThen_afterTelling]
  | askToday next ih => simp only [andThen, runIn, ih]
  | fetch crn requirementId next ih => simp only [andThen, runIn, ih, Run.andThen_afterCall]
  | record report next ih =>
    simp only [andThen, runIn, ih, Run.andThen_afterCall, Run.andThen_afterTelling]
  | create request next ih =>
    simp only [andThen, runIn]
    cases around.create state request <;> simp only [ih, Run.andThen_afterCall]
  | acquire key length next ih =>
    simp only [andThen, runIn]
    cases (around.acquire state key length).result with
    | error cause => rfl
    | ok asked => simp only [ih, Run.andThen_afterCall, Run.andThen_afterTelling]
  | release token next ih => simp only [andThen, runIn, ih, Run.andThen_afterCall]

/-- The second procedure goes on where the first one left. -/
theorem leaves_bind {procedure : Procedure α} {f : α → Procedure β} {before middle after : σ}
    {calls more : List Call} {value : α} {result : Except Overflow β}
    (first : (procedure.runIn around before).Leaves middle calls (.ok value))
    (second : ((f value).runIn around middle).Leaves after more result) :
    ((procedure >>= f).runIn around before).Leaves after (calls ++ more) result := by
  rw [runIn_bind, Run.andThen, first.result, first.state, first.calls]
  exact ⟨second.state, congrArg (calls ++ ·) second.calls, second.result⟩

theorem runIn_tellAll (events : List Event) (state : σ) :
    (tellAll events).runIn around state = ⟨state, [], events, .ok ()⟩ := by
  induction events with
  | nil => rfl
  | cons event rest ih => simp [tellAll, runIn, ih, Run.afterTelling]

/-- A calculation asks nothing of the surroundings. -/
theorem runIn_calculate (x : Traced α) (state : σ) :
    (calculate x).runIn around state = ⟨state, [], x.events, x.result⟩ := by
  have parts := runIn_bind around (tellAll x.events)
    (fun _ => match x.result with
      | .ok value => .finish value
      | .error cause => .breakOff cause) state
  rw [runIn_tellAll] at parts
  refine parts.trans ?_
  cases x.result <;> simp [Run.andThen, runIn]

end Procedure

/-! The orders of a plan -/

theorem nodup_eraseDups {α : Type} [DecidableEq α] (items : List α) : items.eraseDups.Nodup := by
  cases items with
  | nil => exact .nil
  | cons first rest =>
    rw [List.eraseDups_cons, List.nodup_cons]
    exact ⟨by simp, nodup_eraseDups _⟩
termination_by items.length
decreasing_by
  have := List.length_filter_le (fun item => !item == first) rest
  rw [List.length_cons]
  omega

/-- Items sorted by keys that differ and are all there are one permutation of the items. -/
theorem flatMap_filter_perm {α κ : Type} [DecidableEq κ] (key : α → κ) {keys : List κ}
    {items : List α} (distinct : keys.Nodup) (complete : ∀ item ∈ items, key item ∈ keys) :
    (keys.flatMap fun k => items.filter fun item => key item = k).Perm items := by
  induction keys generalizing items with
  | nil =>
    have none : items = [] := List.eq_nil_iff_forall_not_mem.mpr fun item member =>
      List.not_mem_nil (complete item member)
    rw [none]
    exact .nil
  | cons k rest ih =>
    obtain ⟨absent, distinct⟩ := List.nodup_cons.mp distinct
    have covered : ∀ item ∈ items.filter (fun item => !decide (key item = k)), key item ∈ rest := by
      intro item member
      obtain ⟨listed, different⟩ := List.mem_filter.mp member
      have different : key item ≠ k := by simpa using different
      exact (List.mem_cons.mp (complete item listed)).resolve_left different
    have others := ih distinct covered
    have same : (rest.flatMap fun j => (items.filter fun item => !decide (key item = k)).filter
        fun item => key item = j) =
          rest.flatMap fun j => items.filter fun item => key item = j := by
      refine List.flatMap_congr fun j member => ?_
      rw [List.filter_filter]
      refine List.filter_congr fun item _ => ?_
      by_cases own : key item = j
      · have different : j ≠ k := fun same => absent (same ▸ member)
        simp [own, different]
      · simp [own]
    rw [same] at others
    rw [List.flatMap_cons]
    exact (others.append_left _).trans (List.filter_append_perm _ items)

namespace Plan

/-- Orders that carry out a plan's creations for a case: one for each project on
which something is created, the projects ascending, each with what the plan
creates there in the plan's order. -/
structure Orders (p : Plan) (crn : String) (requirementId : Int64)
    (orders : List CreationRequest) : Prop where
  ascending : orders.Pairwise fun o o' => o.projectCode < o'.projectCode
  projects : ∀ code, (∃ o ∈ orders, o.projectCode = code) ↔
    ∃ q ∈ p.creations, q.projectCode = code
  forCase : ∀ o ∈ orders, o.crn = crn ∧ o.requirementId = requirementId
  appointments : ∀ o ∈ orders,
    o.appointments = p.creations.filter fun q => q.projectCode = o.projectCode
  complete : (orders.flatMap (·.appointments)).Perm p.creations

/-- The orders of a plan. -/
def orders (p : Plan) (crn : String) (requirementId : Int64) : List CreationRequest :=
  p.groupByProject.map fun (code, appointments) => ⟨crn, requirementId, code, appointments⟩

variable {p : Plan} {code : String}

theorem mem_projectCodes : code ∈ p.projectCodes ↔ ∃ q ∈ p.creations, q.projectCode = code := by
  rw [projectCodes, (List.mergeSort_perm _ _).mem_iff, List.mem_eraseDups, List.mem_map]

theorem projectCodes_ascending (p : Plan) : p.projectCodes.Pairwise (· < ·) := by
  have sorted : p.projectCodes.Pairwise fun a b => a ≤ b := by
    have chain : p.projectCodes.Pairwise fun a b => decide (a ≤ b) := by
      apply List.pairwise_mergeSort
      · intro a b c first second
        simp only [decide_eq_true_eq] at *
        exact first.trans second
      · intro a b
        simpa using le_total a b
    exact chain.imp of_decide_eq_true
  have distinct : p.projectCodes.Nodup :=
    (List.mergeSort_perm _ _).nodup_iff.mpr (nodup_eraseDups _)
  exact (sorted.and distinct).imp fun ⟨order, different⟩ => lt_of_le_of_ne order different

theorem orders_orders (p : Plan) (crn : String) (requirementId : Int64) :
    p.Orders crn requirementId (p.orders crn requirementId) := by
  have listed : p.orders crn requirementId = p.projectCodes.map fun code =>
      ⟨crn, requirementId, code, p.creations.filter fun q => q.projectCode = code⟩ := by
    simp [orders, groupByProject]
  rw [listed]
  refine ⟨List.pairwise_map.mpr p.projectCodes_ascending, fun code => ?_, ?_, ?_, ?_⟩
  · rw [← mem_projectCodes]
    simp
  · simp
  · simp
  · rw [List.flatMap_map]
    exact flatMap_filter_perm _ (p.projectCodes_ascending.imp ne_of_lt) fun q member =>
      mem_projectCodes.mpr ⟨q, member, rfl⟩

end Plan

/-! Placing orders -/

section Placing
variable {σ α : Type} {around : Surroundings σ} {before changed after : σ}
variable {order : CreationRequest} {orders : List CreationRequest} {calls : List Call}

/-- Places orders in turn, each in the state that the ones before it left, if all are taken. -/
def Surroundings.takeAll (around : Surroundings σ) (before : σ) (orders : List CreationRequest) :
    Except String σ := orders.foldlM around.create before

/-- How the placing of orders ends: in which state, after which calls, and whether
with `value` or with an error. -/
inductive Placed (around : Surroundings σ) (before : σ) (orders : List CreationRequest)
    (value : α) : σ → List Call → Except ServiceError α → Prop
  | all {after : σ} (taken : around.takeAll before orders = .ok after) :
      Placed around before orders value after (orders.map (Call.create · true)) (.ok value)
  | upTo {taken rest : List CreationRequest} {order : CreationRequest} {after : σ}
      {source : String} (split : orders = taken ++ order :: rest)
      (placed : around.takeAll before taken = .ok after)
      (refused : around.create after order = .error source) :
      Placed around before orders value after
        (taken.map (Call.create · true) ++ [Call.create order false])
        (.error (.appointmentCreation order.projectCode source))

theorem takeAll_cons (accepted : around.create before order = .ok changed) :
    around.takeAll before (order :: orders) = around.takeAll changed orders := by
  rw [Surroundings.takeAll, List.foldlM_cons, accepted]
  rfl

theorem Placed.cons {value : α} {result : Except ServiceError α}
    (accepted : around.create before order = .ok changed)
    (rest : Placed around changed orders value after calls result) :
    Placed around before (order :: orders) value after (.create order true :: calls) result := by
  cases rest with
  | all taken =>
    apply Placed.all
    rw [takeAll_cons accepted, taken]
  | @upTo taken rest last _ source split placed refused =>
    rw [split]
    refine Placed.upTo List.cons_append.symm ?_ refused
    rw [takeAll_cons accepted, placed]

/-- Placing orders asks for nothing but to have them created. -/
theorem Placed.creates {value : α} {result : Except ServiceError α}
    (placed : Placed around before orders value after calls result) :
    ∀ call ∈ calls, ∃ order ∈ orders, ∃ accepted, call = .create order accepted := by
  cases placed with
  | all =>
    intro call member
    obtain ⟨order, listed, rfl⟩ := List.mem_map.mp member
    exact ⟨order, listed, true, rfl⟩
  | upTo split =>
    intro call member
    rw [split]
    rcases List.mem_append.mp member with earlier | last
    · obtain ⟨order, listed, rfl⟩ := List.mem_map.mp earlier
      exact ⟨order, List.mem_append_left _ listed, true, rfl⟩
    · cases List.mem_singleton.mp last
      exact ⟨_, List.mem_append_right _ List.mem_cons_self, false, rfl⟩

theorem createAll_leaves (crn : String) (requirementId : Int64)
    (groups : List (String × List RequiredAppointment)) (before : σ) :
    ∃ after calls result,
      ((Service.createAll crn requirementId groups).runIn around before).Leaves after calls
        (.ok result) ∧
      Placed around before (groups.map fun (code, appointments) =>
        ⟨crn, requirementId, code, appointments⟩) () after calls result := by
  induction groups generalizing before with
  | nil => exact ⟨before, [], .ok (), ⟨rfl, rfl, rfl⟩, .all rfl⟩
  | cons group rest ih =>
    obtain ⟨code, appointments⟩ := group
    simp only [Service.createAll, Procedure.runIn, List.map_cons]
    cases answer : around.create before ⟨crn, requirementId, code, appointments⟩ with
    | error source =>
      refine ⟨before, _, _, ⟨rfl, rfl, rfl⟩, ?_⟩
      exact .upTo (List.nil_append _).symm rfl answer
    | ok changed =>
      obtain ⟨after, calls, result, ⟨state, asked, ended⟩, placed⟩ := ih changed
      refine ⟨after, _, result, ⟨state, ?_, ended⟩, placed.cons answer⟩
      simp only [Run.afterCall, Run.afterTelling, asked]

end Placing

/-! What a run reports -/

/-- Every action of a plan is counted once. -/
theorem Plan.length_actions (p : Plan) : p.creations.length + p.countRetained .required +
    p.countRetained .forced + p.countRetained .surplus = p.actions.length := by
  obtain ⟨actions, shortfall⟩ := p
  simp only [creations, countRetained, retentions]
  induction actions with
  | nil => rfl
  | cons action rest ih =>
    cases action with
    | create appointment =>
      simp only [List.filterMap_cons, Action.created?, Action.retained?, List.length_cons]
      omega
    | retain appointment reason =>
      simp only [List.filterMap_cons, Action.created?, Action.retained?, List.length_cons,
        List.countP_cons]
      cases reason <;> simp <;> omega

namespace Report

/-- How many appointments are retained for a reason, by the report. -/
def retained (r : Report) : RetainReason → Nat
  | .required => r.retainedRequired
  | .forced => r.retainedForced
  | .surplus => r.retainedSurplus

/-- The report tells which run it is about and what the outcome amounts to. -/
structure Tells (r : Report) (runId : RunId) (crn : String) (requirementId : Int64)
    (kind : TriggerType) (dryRun : Bool) (outcome : Outcome) : Prop where
  run : r.runId = runId ∧ r.dryRun = dryRun
  subject : r.crn = crn ∧ r.requirementId = requirementId
  trigger : r.triggerType = kind
  name : r.outcome = outcome.name
  planned : ∀ plan, outcome.plan? = some plan → r.creationsPlanned = plan.creations.length ∧
    (∀ reason, r.retained reason = plan.countRetained reason) ∧
    r.shortfallMinutes = plan.shortfall.wholeMinutes
  /-- Each action of the plan is told of once. -/
  whole : ∀ plan, outcome.plan? = some plan → r.creationsPlanned + r.retained .required +
    r.retained .forced + r.retained .surplus = plan.actions.length
  unplanned : outcome.plan? = none →
    r.creationsPlanned = 0 ∧ (∀ reason, r.retained reason = 0) ∧ r.shortfallMinutes = 0

theorem ofOutcome_tells (runId : RunId) (crn : String) (requirementId : Int64) (kind : TriggerType)
    (dryRun : Bool) (outcome : Outcome) :
    (ofOutcome runId crn requirementId kind outcome dryRun).Tells runId crn requirementId kind
      dryRun outcome := by
  refine ⟨⟨rfl, rfl⟩, ⟨rfl, rfl⟩, rfl, rfl, fun plan some => ?_, fun plan some => ?_, ?_⟩
  · simp only [ofOutcome, some]
    exact ⟨rfl, fun reason => by cases reason <;> rfl, rfl⟩
  · simp only [ofOutcome, some]
    exact plan.length_actions
  · intro none
    simp only [ofOutcome, none]
    exact ⟨rfl, fun reason => by cases reason <;> rfl, rfl⟩

end Report

/-! The first unusable appointment -/

/-- Of items checked in turn, the first that fails its check is the one told. -/
theorem forM_eq_error {α ε : Type} {check : α → Except ε Unit} {earlier later : List α} {item : α}
    {cause : ε} (passed : ∀ before ∈ earlier, check before = .ok ())
    (failed : check item = .error cause) :
    (earlier ++ item :: later).forM check = .error cause := by
  induction earlier with
  | nil =>
    rw [List.nil_append, List.forM_eq_forM, List.forM_cons, failed]
    rfl
  | cons first rest ih =>
    have tail := ih fun before member => passed before (List.mem_cons_of_mem first member)
    rw [List.forM_eq_forM] at tail
    rw [List.cons_append, List.forM_eq_forM, List.forM_cons, passed first List.mem_cons_self]
    exact tail

namespace RequirementDetails
variable {d : RequirementDetails}

theorem request_of_ordered (ordered : ∀ b ∈ d.existingAppointments, b.startTime ≤ b.endTime)
    (today : Date) (trigger : Trigger) : ∃ r, d.request today trigger = .ok r := by
  have checked : d.existingAppointments.forM ExistingAppointment.validate = .ok () :=
    forM_eq_ok.mpr fun b member => b.validate_eq_ok_iff.mpr (ordered b member)
  exact ⟨_, bind_eq_ok.mpr ⟨(), checked, rfl⟩⟩

theorem request_of_unordered {earlier later : List ExistingAppointment} {b : ExistingAppointment}
    (split : d.existingAppointments = earlier ++ b :: later)
    (ordered : ∀ a ∈ earlier, a.startTime ≤ a.endTime) (unordered : b.endTime < b.startTime)
    (today : Date) (trigger : Trigger) : d.request today trigger =
      .error (.appointmentTimes b.id b.startTime b.endTime) := by
  have rejected : b.validate = .error (.appointmentTimes b.id b.startTime b.endTime) :=
    if_pos unordered
  have checked : d.existingAppointments.forM ExistingAppointment.validate =
      .error (.appointmentTimes b.id b.startTime b.endTime) := by
    rw [split]
    exact forM_eq_error (fun a member => a.validate_eq_ok_iff.mpr (ordered a member)) rejected
  rw [request, checked]
  rfl

end RequirementDetails

/-! The effects of a run -/

namespace Service
variable {σ : Type} {s : Service} {runId : RunId} {crn : String} {requirementId : Int64}
variable {trigger : Trigger} {dryRun : Bool} {around : Surroundings σ} {before : σ}
variable {details : RequirementDetails} {r : Request} {outcome : Outcome}

/-- What a run leaves behind, whatever its surroundings answer. -/
structure Effects (s : Service) (runId : RunId) (crn : String) (requirementId : Int64)
    (trigger : Trigger) (dryRun : Bool) (around : Surroundings σ) (before : σ)
    (run : Run σ (Except ServiceError Outcome)) : Prop where
  /-- It fetches first of all, and never again. -/
  fetchesOnce : ∃ calls, run.calls = .fetch crn requirementId :: calls ∧
    ∀ other id, Call.fetch other id ∉ calls
  /-- Without an answer it does nothing else. -/
  unfetched : ∀ source, around.fetch before crn requirementId = .error source →
    run.Leaves before [.fetch crn requirementId] (.ok (.error (.caseSystem crn source)))
  /-- Nor if some appointment is unusable; the first such one is told. -/
  unusable : ∀ details, around.fetch before crn requirementId = .ok details →
    ∀ earlier b later, details.existingAppointments = earlier ++ b :: later →
      (∀ a ∈ earlier, a.startTime ≤ a.endTime) → b.endTime < b.startTime →
        run.Leaves before [.fetch crn requirementId]
          (.ok (.error (.invalid (.appointmentTimes b.id b.startTime b.endTime))))
  /-- Else it reports the outcome once; it has nothing created if it only tries or
  if there is no plan, and else it places the orders of the plan. -/
  planned : ∀ details, around.fetch before crn requirementId = .ok details →
    (∀ b ∈ details.existingAppointments, b.startTime ≤ b.endTime) →
      ∃ r, details.request (around.today before) trigger = .ok r ∧
        ∀ outcome, (r.producePlan s.config.maxHorizonDays).result = .ok outcome →
          ∃ report, report.Tells runId crn requirementId trigger.triggerType dryRun outcome ∧
            (dryRun ∨ outcome.plan? = none →
              run.Leaves before [.fetch crn requirementId, .record report] (.ok (.ok outcome))) ∧
            (dryRun = false → ∀ plan, outcome.plan? = some plan →
              ∃ orders after calls result, plan.Orders crn requirementId orders ∧
                Placed around before orders outcome after calls result ∧
                run.Leaves after (.fetch crn requirementId :: .record report :: calls)
                  (.ok result))
  /-- A run that breaks off over an overflow neither reports nor has anything created. -/
  brokenOff : ∀ details, around.fetch before crn requirementId = .ok details →
    ∀ r, details.request (around.today before) trigger = .ok r →
      ∀ cause, (r.producePlan s.config.maxHorizonDays).result = .error cause →
        run.Leaves before [.fetch crn requirementId] (.error cause)

/-- What a run does once it has fetched comes after fetching. -/
theorem runIn_run (fetched : around.fetch before crn requirementId = .ok details) :
    (s.run runId crn requirementId trigger dryRun).runIn around before =
      (((s.planAndCarryOut runId crn requirementId trigger dryRun details).runIn around
        before).afterCall (.fetch crn requirementId)).afterTelling
          [.runStarted crn requirementId dryRun] := by
  simp only [run, Procedure.runIn, fetched]

theorem leaves_run {after : σ} {calls : List Call}
    {result : Except Overflow (Except ServiceError Outcome)}
    (fetched : around.fetch before crn requirementId = .ok details)
    (left : ((s.planAndCarryOut runId crn requirementId trigger dryRun details).runIn around
      before).Leaves after calls result) :
    ((s.run runId crn requirementId trigger dryRun).runIn around before).Leaves after
      (.fetch crn requirementId :: calls) result := by
  rw [runIn_run fetched]
  exact ⟨left.state, congrArg (_ :: ·) left.calls, left.result⟩

theorem run_unfetched {source : String}
    (failed : around.fetch before crn requirementId = .error source) :
    ((s.run runId crn requirementId trigger dryRun).runIn around before).Leaves before
      [.fetch crn requirementId] (.ok (.error (.caseSystem crn source))) := by
  simp only [run, Procedure.runIn, failed]
  exact ⟨rfl, rfl, rfl⟩

theorem planAndCarryOut_unusable {cause : Invalid}
    (unusable : details.request (around.today before) trigger = .error cause) :
    ((s.planAndCarryOut runId crn requirementId trigger dryRun details).runIn around before).Leaves
      before [] (.ok (.error (.invalid cause))) := by
  simp only [planAndCarryOut, Procedure.runIn, Procedure.runIn_bind, Procedure.runIn_tellAll,
    unusable]
  exact ⟨rfl, rfl, rfl⟩

theorem planAndCarryOut_overflow {cause : Overflow}
    (built : details.request (around.today before) trigger = .ok r)
    (overflow : (r.producePlan s.config.maxHorizonDays).result = .error cause) :
    ((s.planAndCarryOut runId crn requirementId trigger dryRun details).runIn around
      before).Leaves before [] (.error cause) := by
  simp only [planAndCarryOut, Procedure.runIn, Procedure.runIn_bind, Procedure.runIn_tellAll,
    Procedure.runIn_calculate, built, Run.andThen, overflow]
  exact ⟨rfl, rfl, rfl⟩

theorem planAndCarryOut_planned {after : σ} {calls : List Call}
    {result : Except Overflow (Except ServiceError Outcome)}
    (built : details.request (around.today before) trigger = .ok r)
    (produced : (r.producePlan s.config.maxHorizonDays).result = .ok outcome)
    (left : ((carryOut crn requirementId dryRun outcome).runIn around before).Leaves after calls
      result) :
    ((s.planAndCarryOut runId crn requirementId trigger dryRun details).runIn around before).Leaves
      after (.record (Report.ofOutcome runId crn requirementId trigger.triggerType outcome dryRun)
        :: calls) result := by
  obtain ⟨state, asked, ended⟩ := left
  simp only [planAndCarryOut, Procedure.runIn, Procedure.runIn_bind, Procedure.runIn_tellAll,
    Procedure.runIn_calculate, built, Run.andThen, produced, List.nil_append]
  exact ⟨state, congrArg (_ :: ·) asked, ended⟩

theorem carryOut_only_tells (only : dryRun ∨ outcome.plan? = none) :
    ((carryOut crn requirementId dryRun outcome).runIn around before).Leaves before []
      (.ok (.ok outcome)) := by
  unfold carryOut
  cases planned : outcome.plan? with
  | none => exact ⟨rfl, rfl, rfl⟩
  | some plan =>
    have tries : dryRun := only.resolve_right (by simp [planned])
    simp only [tries, if_true]
    exact ⟨rfl, rfl, rfl⟩

theorem carryOut_places {plan : Plan} (planned : outcome.plan? = some plan) :
    ∃ after calls result,
      ((carryOut crn requirementId false outcome).runIn around before).Leaves after calls
        (.ok result) ∧
      Placed around before (plan.orders crn requirementId) outcome after calls result := by
  obtain ⟨after, calls, created, left, placed⟩ :=
    createAll_leaves crn requirementId plan.groupByProject before
  refine ⟨after, calls, created.map fun _ => outcome, ?_, ?_⟩
  · simp only [carryOut, planned, Bool.false_eq_true, if_false]
    rw [← List.append_nil calls]
    exact Procedure.leaves_bind around left ⟨rfl, rfl, rfl⟩
  · cases placed with
    | all taken => exact .all taken
    | upTo split placed refused => exact .upTo split placed refused

/-- Planning and carrying out fetches nothing. -/
theorem not_fetch_of_planAndCarryOut (other : String) (id : Int64) : Call.fetch other id ∉
    ((s.planAndCarryOut runId crn requirementId trigger dryRun details).runIn around
      before).calls := by
  cases built : details.request (around.today before) trigger with
  | error cause => simp [(planAndCarryOut_unusable built).calls]
  | ok r =>
    cases produced : (r.producePlan s.config.maxHorizonDays).result with
    | error cause => simp [(planAndCarryOut_overflow built produced).calls]
    | ok outcome =>
      by_cases only : dryRun ∨ outcome.plan? = none
      · simp [(planAndCarryOut_planned built produced (carryOut_only_tells only)).calls]
      · obtain ⟨real, plan⟩ := not_or.mp only
        obtain ⟨plan, planned⟩ := Option.ne_none_iff_exists'.mp plan
        rw [Bool.not_eq_true] at real
        subst real
        obtain ⟨after, calls, result, left, placed⟩ := carryOut_places planned
        rw [(planAndCarryOut_planned built produced left).calls]
        intro member
        rcases List.mem_cons.mp member with report | create
        · cases report
        · obtain ⟨order, -, accepted, same⟩ := placed.creates _ create
          cases same

theorem run_effects (s : Service) (runId : RunId) (crn : String) (requirementId : Int64)
    (trigger : Trigger) (dryRun : Bool) (around : Surroundings σ) (before : σ) :
    s.Effects runId crn requirementId trigger dryRun around before
      ((s.run runId crn requirementId trigger dryRun).runIn around before) := by
  constructor
  · cases answer : around.fetch before crn requirementId with
    | error source => exact ⟨[], (run_unfetched answer).calls, fun _ _ => List.not_mem_nil⟩
    | ok details =>
      rw [runIn_run answer]
      exact ⟨_, rfl, not_fetch_of_planAndCarryOut⟩
  · intro source failed
    exact run_unfetched failed
  · intro details fetched earlier b later split ordered unordered
    apply leaves_run fetched
    apply planAndCarryOut_unusable
    exact RequirementDetails.request_of_unordered split ordered unordered _ _
  · intro details fetched ordered
    obtain ⟨r, built⟩ := RequirementDetails.request_of_ordered ordered (around.today before) trigger
    refine ⟨r, built, fun outcome produced => ?_⟩
    refine ⟨_, Report.ofOutcome_tells _ _ _ _ _ _, fun only => ?_, ?_⟩
    · exact leaves_run fetched (planAndCarryOut_planned built produced (carryOut_only_tells only))
    · rintro rfl plan planned
      obtain ⟨after, calls, result, left, placed⟩ := carryOut_places planned
      exact ⟨plan.orders crn requirementId, after, calls, result, plan.orders_orders _ _, placed,
        leaves_run fetched (planAndCarryOut_planned built produced left)⟩
  · intro details fetched r built cause overflow
    exact leaves_run fetched (planAndCarryOut_overflow built overflow)

/-- Whatever the surroundings answer, a run that carries plans out if the settings
say so, and one that only tries, each leave exactly these effects. -/
theorem runs_leave_exactly_their_effects (s : Service) (runId : RunId) (crn : String)
    (requirementId : Int64) (trigger : Trigger) (around : Surroundings σ) (before : σ) :
    s.Effects runId crn requirementId trigger s.config.dryRun around before
        ((s.schedule runId crn requirementId trigger).runIn around before) ∧
      s.Effects runId crn requirementId trigger true around before
        ((s.preview runId crn requirementId trigger).runIn around before) := by
  constructor
  · exact run_effects s runId crn requirementId trigger s.config.dryRun around before
  · exact run_effects s runId crn requirementId trigger true around before

end Service
end UnpaidWork
