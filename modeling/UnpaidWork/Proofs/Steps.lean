import UnpaidWork.CaseBook
import UnpaidWork.Proofs.LockHistory
import UnpaidWork.Service

/-!
Procedures one step at a time. Between two steps others may use the lock, and
the case system may answer anything; only the lock answers by what it holds.
A run alone takes such steps, one for each of its calls. A locked run first asks
for the lease of its case, then leaves the lock alone, and at last releases it.
-/
namespace UnpaidWork

/-- What a step does, as far as others can notice. -/
inductive Deed where
  | worksAlone
  /-- It calls the case system, or it reports. -/
  | touches (call : Call)
  | isGranted (token : LockToken)
  | isRefused (key : String)
  /-- It is granted a lease whose end cannot be told. -/
  | breaksOff (key : String)
  | releases (token : LockToken)

namespace Deed

/-- The call that is made. -/
def call? : Deed → Option Call
  | .worksAlone => none
  | .touches call => some call
  | .isGranted token => some (.acquire token.key)
  | .isRefused key | .breaksOff key => some (.acquire key)
  | .releases token => some (.release token)

/-- The lock is left alone. -/
def IsWork : Deed → Prop
  | .worksAlone | .touches _ => True
  | .isGranted _ | .isRefused _ | .breaksOff _ | .releases _ => False

end Deed

namespace Procedure
variable {α β : Type} {now : Nat} {lock after : CaseLock} {deed : Deed}

/-- One step at a time `now`: what it does, and the lock and the rest of the
procedure after it. A token that the lock is to hand out may be any. -/
inductive Step (now : Nat) : CaseLock → Procedure α → Deed → CaseLock → Procedure α → Prop
  | tell {lock : CaseLock} (event : Event) (next : Procedure α) :
      Step now lock (.tell event next) .worksAlone lock next
  | askToday {lock : CaseLock} (next : Date → Procedure α) (today : Date) :
      Step now lock (.askToday next) .worksAlone lock (next today)
  | fetch {lock : CaseLock} (crn : String) (requirementId : Int64)
      (next : Except String RequirementDetails → Procedure α)
      (answer : Except String RequirementDetails) :
      Step now lock (.fetch crn requirementId next) (.touches (.fetch crn requirementId)) lock
        (next answer)
  | record {lock : CaseLock} (report : Report) (next : Procedure α) :
      Step now lock (.record report next) (.touches (.record report)) lock next
  | created {lock : CaseLock} (request : CreationRequest)
      (next : Except String Unit → Procedure α) :
      Step now lock (.create request next) (.touches (.create request true)) lock (next (.ok ()))
  | rejected {lock : CaseLock} (request : CreationRequest) (next : Except String Unit → Procedure α)
      (text : String) : Step now lock (.create request next) (.touches (.create request false)) lock
        (next (.error text))
  | granted {lock after : CaseLock} {key : String} {length : Nat} {got : LockToken} (token : Nat)
      (next : Except String (Option LockToken) → Procedure α)
      (answer : (lock.acquire now length key token).result = .ok (some got, after)) :
      Step now lock (.acquire key length next) (.isGranted got) after (next (.ok (some got)))
  | refused {lock after : CaseLock} {key : String} {length : Nat} (token : Nat)
      (next : Except String (Option LockToken) → Procedure α)
      (answer : (lock.acquire now length key token).result = .ok (none, after)) :
      Step now lock (.acquire key length next) (.isRefused key) after (next (.ok none))
  | overflow {lock : CaseLock} {key : String} {length : Nat} {cause : Overflow} (token : Nat)
      (next : Except String (Option LockToken) → Procedure α)
      (answer : (lock.acquire now length key token).result = .error cause) :
      Step now lock (.acquire key length next) (.breaksOff key) lock (.breakOff cause)
  | release {lock : CaseLock} (token : LockToken) (next : Except String Unit → Procedure α) :
      Step now lock (.release token next) (.releases token) (lock.release token) (next (.ok ()))

/-- Steps one after the other. -/
inductive Steps (now : Nat) : CaseLock → Procedure α → List Deed → CaseLock → Procedure α → Prop
  | none {lock : CaseLock} {p : Procedure α} : Steps now lock p [] lock p
  | more {lock middle after : CaseLock} {p q r : Procedure α} {deed : Deed} {deeds : List Deed}
      (first : Step now lock p deed middle q) (rest : Steps now middle q deeds after r) :
      Steps now lock p (deed :: deeds) after r

/-- Orders leave the lock of a book, its clock and its failures as they are. -/
theorem create_frame {b changed : CaseBook} {order : CreationRequest}
    (taken : b.create order = .ok changed) :
    changed.lock = b.lock ∧ changed.clock = b.clock ∧ changed.failures = b.failures := by
  unfold CaseBook.create at taken
  split at taken
  · cases taken
  · split at taken
    · cases taken
      exact ⟨rfl, rfl, rfl⟩
    · cases taken
      exact ⟨rfl, rfl, rfl⟩

/-- A book whose lock does not fail answers by what the lock answers to a new token. -/
theorem acquire_of_available {b : CaseBook} {key : String} {length : Nat}
    (available : b.failures.acquire = false) :
    (CaseBook.surroundings.acquire b key length).result =
      (b.lock.acquire b.clock length key b.nextToken).result.map fun (token, lock) =>
        (.ok token, { b with lock := lock, nextToken := b.nextToken + 1 }) := by
  simp only [CaseBook.surroundings, available, Bool.false_eq_true, if_false, CaseBook.tryAcquire,
    Traced.result_bind, Traced.result_pure]
  cases (b.lock.acquire b.clock length key b.nextToken).result <;> rfl

/-- A run alone with a book that does not fail its lock is made of such steps,
and its calls are what they do. -/
theorem runIn_steps (p : Procedure α) {b : CaseBook} {value : α}
    (acquires : b.failures.acquire = false) (releases : b.failures.release = false)
    (ended : (p.runIn CaseBook.surroundings b).result = .ok value) :
    ∃ deeds, Steps b.clock b.lock p deeds (p.runIn CaseBook.surroundings b).state.lock
        (.finish value) ∧
      deeds.filterMap Deed.call? = (p.runIn CaseBook.surroundings b).calls := by
  induction p generalizing b with
  | finish result =>
    cases ended
    exact ⟨[], .none, rfl⟩
  | breakOff cause => cases ended
  | tell event next ih =>
    obtain ⟨deeds, steps, calls⟩ := ih acquires releases ended
    exact ⟨_, .more (.tell event next) steps, calls⟩
  | askToday next ih =>
    obtain ⟨deeds, steps, calls⟩ := ih b.today acquires releases ended
    exact ⟨_, .more (.askToday next b.today) steps, calls⟩
  | fetch crn requirementId next ih =>
    obtain ⟨deeds, steps, calls⟩ := ih (b.fetch crn requirementId) acquires releases ended
    exact ⟨_, .more (.fetch crn requirementId next _) steps, congrArg (_ :: ·) calls⟩
  | record report next ih =>
    obtain ⟨deeds, steps, calls⟩ := ih acquires releases ended
    exact ⟨_, .more (.record report next) steps, congrArg (_ :: ·) calls⟩
  | create request next ih =>
    rw [runIn] at ended ⊢
    cases taken : CaseBook.surroundings.create b request with
    | error text =>
      rw [taken] at ended
      obtain ⟨deeds, steps, calls⟩ := ih (.error text) acquires releases ended
      exact ⟨_, .more (.rejected request next text) steps, congrArg (_ :: ·) calls⟩
    | ok changed =>
      rw [taken] at ended
      obtain ⟨lock, clock, failures⟩ := create_frame taken
      rw [← failures] at acquires releases
      obtain ⟨deeds, steps, calls⟩ := ih (.ok ()) acquires releases ended
      rw [lock, clock] at steps
      exact ⟨_, .more (.created request next) steps, congrArg (_ :: ·) calls⟩
  | acquire key length next ih =>
    simp only [runIn, acquire_of_available acquires] at ended ⊢
    cases answer : (b.lock.acquire b.clock length key b.nextToken).result with
    | error cause =>
      rw [answer] at ended
      cases ended
    | ok asked =>
      obtain ⟨token, lock⟩ := asked
      rw [answer] at ended
      let changed : CaseBook := { b with lock := lock, nextToken := b.nextToken + 1 }
      obtain ⟨deeds, steps, calls⟩ := @ih (.ok token) changed acquires releases ended
      cases token with
      | none => exact ⟨_, .more (.refused _ next answer) steps, congrArg (_ :: ·) calls⟩
      | some got =>
        have own : got.key = key := by
          rcases CaseLock.acquire_eq_ok.mp answer with ⟨-, none, -⟩ | ⟨-, -, some, -⟩
          · cases none
          · cases some
            rfl
        refine ⟨_, .more (.granted _ next answer) steps, ?_⟩
        exact own ▸ congrArg (_ :: ·) calls
  | release token next ih =>
    have answer : CaseBook.surroundings.release b token = (.ok (), b.release token) := by
      simp [CaseBook.surroundings, releases]
    simp only [runIn, answer] at ended ⊢
    obtain ⟨deeds, steps, calls⟩ := @ih (.ok ()) (b.release token) acquires releases ended
    exact ⟨_, .more (.release token next) steps, congrArg (_ :: ·) calls⟩

/-! Parts that leave the lock alone -/

/-- The procedure never asks for a lease and never releases one. -/
def LockFree : Procedure α → Prop
  | .finish _ | .breakOff _ => True
  | .tell _ next | .record _ next => LockFree next
  | .askToday next => ∀ today, LockFree (next today)
  | .fetch _ _ next => ∀ answer, LockFree (next answer)
  | .create _ next => ∀ answer, LockFree (next answer)
  | .acquire .. | .release .. => False

theorem LockFree.andThen {p : Procedure α} {f : α → Procedure β} (first : p.LockFree)
    (second : ∀ value, (f value).LockFree) : (andThen f p).LockFree := by
  induction p with
  | finish result => exact second result
  | breakOff => trivial
  | tell _ _ ih => exact ih first
  | record _ _ ih => exact ih first
  | askToday _ ih => exact fun today => ih today (first today)
  | fetch _ _ _ ih => exact fun answer => ih answer (first answer)
  | create _ _ ih => exact fun answer => ih answer (first answer)
  | acquire => exact first.elim
  | release => exact first.elim

/-- A step of two parts is one of the second if the first has come to its end, and
else one of the first. -/
theorem step_of_parts {p : Procedure α} {f : α → Procedure β} {r : Procedure β}
    (step : Step now lock (Procedure.andThen f p) deed after r) :
    (∃ value, p = .finish value ∧ Step now lock (f value) deed after r) ∨
      ∃ q : Procedure α, Step now lock p deed after q ∧ r = Procedure.andThen f q := by
  cases p with
  | finish value => exact .inl ⟨value, rfl, step⟩
  | breakOff => cases step
  | tell event next =>
    cases step
    exact .inr ⟨next, .tell event next, rfl⟩
  | askToday next =>
    cases step with
    | askToday _ today => exact .inr ⟨next today, .askToday next today, rfl⟩
  | fetch crn requirementId next =>
    cases step with
    | fetch _ _ _ answer => exact .inr ⟨next answer, .fetch crn requirementId next answer, rfl⟩
  | record report next =>
    cases step
    exact .inr ⟨next, .record report next, rfl⟩
  | create request next =>
    cases step with
    | created => exact .inr ⟨next (.ok ()), .created request next, rfl⟩
    | rejected _ _ text => exact .inr ⟨next (.error text), .rejected request next text, rfl⟩
  | acquire key length next =>
    cases step with
    | granted token _ answer => exact .inr ⟨_, .granted token next answer, rfl⟩
    | refused token _ answer => exact .inr ⟨_, .refused token next answer, rfl⟩
    | overflow token _ answer => exact .inr ⟨_, .overflow token next answer, rfl⟩
  | release token next =>
    cases step
    exact .inr ⟨next (.ok ()), .release token next, rfl⟩

/-- A procedure that leaves the lock alone does so in each step, and can take the
step at any time and whatever the lock holds. -/
theorem LockFree.step {p q : Procedure α} (free : p.LockFree)
    (step : Step now lock p deed after q) : deed.IsWork ∧ after = lock ∧ q.LockFree ∧
      ∀ (time : Nat) (table : CaseLock), Step time table p deed table q := by
  cases step with
  | tell event => exact ⟨trivial, rfl, free, fun _ _ => .tell event q⟩
  | askToday next today => exact ⟨trivial, rfl, free today, fun _ _ => .askToday next today⟩
  | fetch crn requirementId next answer =>
    exact ⟨trivial, rfl, free answer, fun _ _ => .fetch crn requirementId next answer⟩
  | record report => exact ⟨trivial, rfl, free, fun _ _ => .record report q⟩
  | created request next => exact ⟨trivial, rfl, free _, fun _ _ => .created request next⟩
  | rejected request next text =>
    exact ⟨trivial, rfl, free _, fun _ _ => .rejected request next text⟩
  | granted | refused | overflow | release => exact free.elim

theorem lockFree_tellAll (events : List Event) : (tellAll events).LockFree := by
  induction events with
  | nil => trivial
  | cons _ _ ih => exact ih

theorem lockFree_calculate (x : Traced α) : (calculate x).LockFree := by
  refine (lockFree_tellAll x.events).andThen fun _ => ?_
  cases x.result <;> trivial

end Procedure

namespace Service
open Procedure

theorem lockFree_createAll (crn : String) (requirementId : Int64)
    (groups : List (String × List RequiredAppointment)) :
    (createAll crn requirementId groups).LockFree := by
  induction groups with
  | nil => trivial
  | cons group rest ih =>
    intro answer
    cases answer with
    | ok => exact ih
    | error => trivial

theorem lockFree_carryOut (crn : String) (requirementId : Int64) (dryRun : Bool)
    (outcome : Outcome) : (carryOut crn requirementId dryRun outcome).LockFree := by
  unfold carryOut
  split
  · trivial
  · split
    · trivial
    · exact (lockFree_createAll crn requirementId _).andThen fun _ => trivial

/-- Planning and carrying out are done without the lock. -/
theorem lockFree_schedule (s : Service) (runId : RunId) (crn : String) (requirementId : Int64)
    (trigger : Trigger) : (s.schedule runId crn requirementId trigger).LockFree := by
  intro answer
  cases answer with
  | error => trivial
  | ok details =>
    intro today
    refine (lockFree_tellAll _).andThen fun _ => ?_
    split
    · trivial
    · exact (lockFree_calculate _).andThen fun outcome => lockFree_carryOut _ _ _ outcome

end Service

/-! Locked runs -/

/-- A call for a locked run. -/
structure LockedCall where
  service : Service
  runId : RunId
  crn : String
  requirementId : Int64
  trigger : Trigger

namespace LockedCall
variable {c : LockedCall} {now : Nat} {lock after : CaseLock} {deed : Deed}
variable {rest r : Procedure (Except ServiceError Outcome)} {token : LockToken}

/-- The run that the call is for. -/
def procedure (c : LockedCall) : Procedure (Except ServiceError Outcome) :=
  c.service.scheduleLocked c.runId c.crn c.requirementId c.trigger

/-- The same run without the lock. -/
def scheduled (c : LockedCall) : Procedure (Except ServiceError Outcome) :=
  c.service.schedule c.runId c.crn c.requirementId c.trigger

/-- What is left to do with the lease: the rest of the planning, and to release it. -/
def holding (c : LockedCall) (token : LockToken)
    (rest : Procedure (Except ServiceError Outcome)) : Procedure (Except ServiceError Outcome) := do
  let result ← rest
  Service.releaseLock c.crn token
  return result

theorem lockFree_scheduled (c : LockedCall) : c.scheduled.LockFree :=
  Service.lockFree_schedule _ _ _ _ _

/-- The first step asks for the lease of the case. -/
theorem first_step (step : Procedure.Step now lock c.procedure deed after r) :
    (∃ token, (lock.acquire now c.service.leaseLength c.crn token).result =
        .ok (some ⟨c.crn, token⟩, after) ∧ deed = .isGranted ⟨c.crn, token⟩ ∧
        r = c.holding ⟨c.crn, token⟩ c.scheduled) ∨
      ((∃ held, lock.lease? c.crn = some held ∧ now < held.expiresAt) ∧ after = lock ∧
        deed = .isRefused c.crn ∧ r = .finish (.error (.lockUnavailable c.crn))) ∨
      (after = lock ∧ deed = .breaksOff c.crn ∧ ∃ cause, r = .breakOff cause) := by
  cases step with
  | granted token _ answer =>
    obtain ⟨-, none, -⟩ | ⟨-, -, own, -⟩ := CaseLock.acquire_eq_ok.mp answer
    · cases none
    · cases own
      exact .inl ⟨token, answer, rfl, rfl⟩
  | refused _ _ answer =>
    obtain ⟨taken, -, same⟩ | ⟨-, -, got, -⟩ := CaseLock.acquire_eq_ok.mp answer
    · exact .inr (.inl ⟨taken, same, rfl, rfl⟩)
    · cases got
  | overflow => exact .inr (.inr ⟨rfl, rfl, _, rfl⟩)

/-- With the lease the run takes the steps of the planning, and at the end of it
releases the lease and is over with its result. -/
theorem later_step (step : Procedure.Step now lock (c.holding token rest) deed after r) :
    (∃ more, Procedure.Step now lock rest deed after more ∧ r = c.holding token more) ∨
      ∃ result, rest = .finish result ∧ deed = .releases token ∧ after = lock.release token ∧
        r = .finish result := by
  rcases Procedure.step_of_parts step with ⟨result, ended, release⟩ | first
  · cases release
    exact .inr ⟨result, ended, rfl, rfl, rfl⟩
  · exact .inl first

/-- A run starts by asking for the lease of its case. -/
theorem step_procedure (step : Procedure.Step now lock c.procedure deed after r) :
    (∃ token, (lock.acquire now c.service.leaseLength c.crn token).result =
        .ok (some ⟨c.crn, token⟩, after) ∧ deed = .isGranted ⟨c.crn, token⟩ ∧
        ∃ rest, rest.LockFree ∧ r = c.holding ⟨c.crn, token⟩ rest) ∨
      ((∃ held, lock.lease? c.crn = some held ∧ now < held.expiresAt) ∧ after = lock ∧
        deed = .isRefused c.crn ∧ r = .finish (.error (.lockUnavailable c.crn))) ∨
      (after = lock ∧ deed = .breaksOff c.crn ∧ ∃ cause, r = .breakOff cause) := by
  refine (first_step step).imp_left fun ⟨token, answer, did, same⟩ => ?_
  exact ⟨token, answer, did, _, c.lockFree_scheduled, same⟩

/-- With the lease it leaves the lock alone until it releases the lease and is over. -/
theorem step_holding (free : rest.LockFree)
    (step : Procedure.Step now lock (c.holding token rest) deed after r) :
    (deed.IsWork ∧ after = lock ∧ ∃ more, more.LockFree ∧ r = c.holding token more) ∨
      (deed = .releases token ∧ after = lock.release token ∧ ∃ result, r = .finish result) := by
  rcases later_step step with ⟨more, working, rfl⟩ | ⟨result, -, release, same, rfl⟩
  · obtain ⟨work, same, left, -⟩ := free.step working
    exact .inl ⟨work, same, more, left, rfl⟩
  · exact .inr ⟨release, same, result, rfl⟩

end LockedCall
end UnpaidWork
