import UnpaidWork.Proofs.Effects
import UnpaidWork.Proofs.Steps

/-!
A locked run leaves no trace in the lock. Without a lease it does nothing; with
one it does what the same run does without the lock, and then releases the
lease, however that came out. Other clients may use the lock meanwhile. The lease
of a run may elapse and be taken over by one of them before the run is over; then
the late release ends nothing, for the token is not the one of the new lease.
-/
namespace UnpaidWork

/-! Whatever the lock answers -/

/-- A call to the case system, or a report. -/
def Call.IsWork : Call → Prop
  | .fetch .. | .record _ | .create .. => True
  | .acquire _ | .release _ => False

/-- A procedure that leaves the lock alone calls it for nothing. -/
theorem Procedure.LockFree.calls {σ α : Type} {p : Procedure α} (free : p.LockFree)
    (around : Surroundings σ) (before : σ) :
    ∀ call ∈ (p.runIn around before).calls, call.IsWork := by
  induction p generalizing before with
  | finish => simp [runIn]
  | breakOff => simp [runIn]
  | tell event next ih => exact ih free before
  | askToday next ih => exact ih _ (free _) before
  | fetch crn requirementId next ih =>
    exact List.forall_mem_cons.mpr ⟨trivial, ih _ (free _) before⟩
  | record report next ih => exact List.forall_mem_cons.mpr ⟨trivial, ih free before⟩
  | create request next ih =>
    rw [runIn]
    split
    · exact List.forall_mem_cons.mpr ⟨trivial, ih _ (free _) _⟩
    · exact List.forall_mem_cons.mpr ⟨trivial, ih _ (free _) before⟩
  | acquire => exact free.elim
  | release => exact free.elim

namespace LockedCall
variable {σ : Type} {c : LockedCall} {around : Surroundings σ} {before held : σ}
variable {token : LockToken}

/-- What a locked run must leave behind once it has the lease, by what the same run
without the lock comes to from there. -/
def LeavesLeased (c : LockedCall) (around : Surroundings σ) (held : σ) (token : LockToken)
    (run : Run σ (Except ServiceError Outcome)) : Prop :=
  let alone := c.scheduled.runIn around held
  (∀ call ∈ alone.calls, call.IsWork) ∧
    match alone.result with
    | .ok result => run.Leaves (around.release alone.state token).2
        (.acquire c.crn :: (alone.calls ++ [.release token])) (.ok result)
    | .error cause => run.Leaves alone.state (.acquire c.crn :: alone.calls) (.error cause)

/-- What a locked run must leave behind, by what the lock answers. -/
def LeavesClean (c : LockedCall) (around : Surroundings σ) (before : σ)
    (run : Run σ (Except ServiceError Outcome)) : Prop :=
  match (around.acquire before c.crn c.service.leaseLength).result with
  | .ok (.ok (some token), held) => c.LeavesLeased around held token run
  | .ok (.ok none, after) =>
    run.Leaves after [.acquire c.crn] (.ok (.error (.lockUnavailable c.crn)))
  | .ok (.error source, after) => run.Leaves after [.acquire c.crn] (.ok (.error (.lock source)))
  | .error cause => run.Leaves before [.acquire c.crn] (.error cause)

/-- A lease is released by one call; what the lock answers to it does not matter. -/
theorem runIn_releaseLock (crn : String) (token : LockToken) (state : σ) :
    ((Service.releaseLock crn token).runIn around state).Leaves (around.release state token).2
      [.release token] (.ok ()) := by
  rw [Service.releaseLock, Procedure.runIn]
  rcases around.release state token with ⟨_ | _, after⟩
  · exact ⟨rfl, rfl, rfl⟩
  · exact ⟨rfl, rfl, rfl⟩

theorem leaves_holding (c : LockedCall) {rest : Procedure (Except ServiceError Outcome)}
    {result : Except ServiceError Outcome} (ended : (rest.runIn around held).result = .ok result) :
    ((c.holding token rest).runIn around held).Leaves
      (around.release (rest.runIn around held).state token).2
      ((rest.runIn around held).calls ++ [.release token]) (.ok result) := by
  apply Procedure.leaves_bind around ⟨rfl, rfl, ended⟩
  rw [← List.append_nil [Call.release token]]
  exact Procedure.leaves_bind around (runIn_releaseLock c.crn token _) ⟨rfl, rfl, rfl⟩

theorem leaves_holding_brokenOff (c : LockedCall)
    {rest : Procedure (Except ServiceError Outcome)} {cause : Overflow}
    (broken : (rest.runIn around held).result = .error cause) :
    ((c.holding token rest).runIn around held).Leaves (rest.runIn around held).state
      (rest.runIn around held).calls (.error cause) := by
  rw [holding, Procedure.runIn_bind, Run.andThen, broken]
  exact ⟨rfl, rfl, rfl⟩

theorem leavesClean (c : LockedCall) (around : Surroundings σ) (before : σ) :
    c.LeavesClean around before (c.procedure.runIn around before) := by
  simp only [LeavesClean, procedure, Service.scheduleLocked, Procedure.runIn]
  split
  next token held leased =>
    refine ⟨c.lockFree_scheduled.calls around held, ?_⟩
    rw [leased]
    split
    next result ended =>
      obtain ⟨state, calls, result⟩ := c.leaves_holding ended
      exact ⟨state, congrArg (_ :: ·) calls, result⟩
    next cause broken =>
      obtain ⟨state, calls, result⟩ := c.leaves_holding_brokenOff broken
      exact ⟨state, congrArg (_ :: ·) calls, result⟩
  next after refused =>
    rw [refused]
    exact ⟨rfl, rfl, rfl⟩
  next source after failed =>
    rw [failed]
    exact ⟨rfl, rfl, rfl⟩
  next cause overflow =>
    rw [overflow]
    exact ⟨rfl, rfl, rfl⟩

end LockedCall

/-! The lease of a run and those of others after it -/

namespace CaseLock

/-- The call neither brings this token for a lease nor hands it back. -/
def LockCall.Spares (token : LockToken) : LockCall → Prop
  | .acquire key _ fresh => (⟨key, fresh⟩ : LockToken) ≠ token
  | .release handed => handed ≠ token

section Serving
variable {lock next : CaseLock} {c : ClientCall} {answer : Option LockToken}
variable {own : Served} {g : Grant} {since served : List Served} {calls : List ClientCall}

theorem serveAll_concat {middle : CaseLock} (ran : lock.serveAll calls = .ok (served, middle))
    (last : middle.serve c = .ok (answer, next)) :
    lock.serveAll (calls ++ [c]) = .ok (served ++ [⟨c, answer⟩], next) := by
  induction calls generalizing lock served with
  | nil =>
    cases ran
    exact serveAll_cons.mpr ⟨answer, next, [], last, rfl, rfl⟩
  | cons first rest ih =>
    obtain ⟨got, changed, more, ranFirst, ranRest, rfl⟩ := serveAll_cons.mp ran
    exact serveAll_cons.mpr ⟨got, changed, _, ranFirst, ih ranRest, rfl⟩

/-- A lease is granted for the token that was brought, when the one on the key has ended. -/
theorem serve_grant (ran : lock.serve c = .ok (answer, next))
    (granted : Served.grant? ⟨c, answer⟩ = some g) :
    (∃ length, c.call = .acquire g.token.key length g.token.token) ∧
      ∀ held, lock.lease? g.token.key = some held → held.expiresAt ≤ c.now := by
  obtain ⟨now, call⟩ := c
  cases call with
  | release => cases granted
  | acquire key length token =>
    rcases acquire_eq_ok.mp ran with ⟨-, rfl, -⟩ | ⟨ended, -, rfl, -⟩
    · cases granted
    · cases granted
      exact ⟨⟨length, rfl⟩, ended⟩

theorem current_cons : Current (own :: since) g ↔
    (own.grant? = some g ∧ ¬ g.HandedBack since ∧ ¬ g.Replaced since) ∨ Current since g := by
  constructor
  · rintro ⟨after, ⟨before, s, split, granted⟩, kept, latest⟩
    cases before with
    | nil =>
      cases split
      exact .inl ⟨granted, kept, latest⟩
    | cons _ before =>
      cases split
      exact .inr ⟨after, ⟨before, s, rfl, granted⟩, kept, latest⟩
  · rintro (⟨granted, kept, latest⟩ | ⟨after, ⟨before, s, rfl, granted⟩, kept, latest⟩)
    · exact ⟨since, ⟨[], own, rfl, granted⟩, kept, latest⟩
    · exact ⟨after, ⟨own :: before, s, rfl, granted⟩, kept, latest⟩

/-- Since the lease `g` was granted, the lock has held on its key what was current
by then. Nobody else has handed the lease back, and others were granted the key
only after it had elapsed. -/
structure Follows (own : Served) (g : Grant) (since : List Served) (lock : CaseLock) : Prop where
  granted : own.grant? = some g
  holds : ∀ lease, lock.lease? g.token.key = some lease ↔
    Current (own :: since) ⟨⟨g.token.key, lease.token⟩, lease.expiresAt⟩
  kept : ¬ g.HandedBack since
  others : ∀ s ∈ since, ∀ later, s.grant? = some later → later.token ≠ g.token
  late : ∀ s ∈ since, ∀ later, s.grant? = some later → later.token.key = g.token.key →
    g.expiresAt ≤ s.now

namespace Follows

theorem start {key : String} {now length token : Nat} (lock : CaseLock) :
    Follows ⟨⟨now, .acquire key length token⟩, some ⟨key, token⟩⟩ ⟨⟨key, token⟩, now + length⟩ []
      (lock.insert key ⟨token, now + length⟩) where
  granted := rfl
  holds lease := by
    rw [lease?_insert, if_pos rfl, current_cons]
    cases lease
    simp [Served.grant?, Grant.HandedBack, Grant.Replaced, Current, Granted]
  kept := by simp [Grant.HandedBack]
  others := by simp
  late := by simp

/-- Unless it was replaced, the lease is still there. -/
theorem leased (follows : Follows own g since lock) (latest : ¬ g.Replaced since) :
    lock.lease? g.token.key = some ⟨g.token.token, g.expiresAt⟩ :=
  (follows.holds _).mpr (current_cons.mpr (.inl ⟨follows.granted, follows.kept, latest⟩))

/-- Another client is served. -/
theorem serve (follows : Follows own g since lock) (ran : lock.serve c = .ok (answer, next))
    (order : ∀ s ∈ since, s.now ≤ c.now) (spares : c.call.Spares g.token) :
    Follows own g (since ++ [⟨c, answer⟩]) next := by
  refine ⟨follows.granted, holds_serve ran follows.holds, ?_, ?_, ?_⟩
  · rw [handedBack_concat, not_or]
    refine ⟨follows.kept, fun handed => ?_⟩
    change c.call = _ at handed
    rw [handed] at spares
    exact spares rfl
  · intro s member later granted
    rcases List.mem_append.mp member with earlier | last
    · exact follows.others s earlier later granted
    · cases List.mem_singleton.mp last
      obtain ⟨⟨length, called⟩, -⟩ := serve_grant ran granted
      rw [called] at spares
      exact spares
  · intro s member later granted same
    rcases List.mem_append.mp member with earlier | last
    · exact follows.late s earlier later granted same
    · cases List.mem_singleton.mp last
      -- If nobody has got the key since, the lock still has the lease `g` itself.
      by_cases replaced : g.Replaced since
      · obtain ⟨s, earlier, before, granted, onKey⟩ := replaced
        exact Nat.le_trans (follows.late s earlier before granted onKey) (order s earlier)
      · obtain ⟨-, ended⟩ := serve_grant ran granted
        rw [same] at ended
        exact ended _ (follows.leased replaced)

/-- Once the lease is released, the lock holds on its key what is current of the others. -/
theorem release (follows : Follows own g since lock) (lease : Lease) :
    (lock.release g.token).lease? g.token.key = some lease ↔
      Current since ⟨⟨g.token.key, lease.token⟩, lease.expiresAt⟩ := by
  rw [lease?_release, follows.holds, current_cons, follows.granted]
  constructor
  · rintro ⟨⟨same, -⟩ | current, different⟩
    · exact absurd (congrArg Grant.token (Option.some.inj same)).symm different
    · exact current
  · intro current
    have ⟨_, ⟨_, s, split, granted⟩, _⟩ := current
    exact ⟨.inr current, follows.others s (by simp [split]) _ granted⟩

end Follows
end Serving
end CaseLock

/-! Beside other clients -/

/-- What happens while a locked run is under way: it takes a step, or another client
of the lock is served. -/
inductive Happening where
  | own (now : Nat) (deed : Deed)
  | other (served : CaseLock.Served)

namespace Happening

def now : Happening → Nat
  | .own now _ => now
  | .other served => served.now

def deed? : Happening → Option Deed
  | .own _ deed => some deed
  | .other _ => none

def served? : Happening → Option CaseLock.Served
  | .own .. => none
  | .other served => some served

end Happening

/-- What the run has done. -/
def ownDeeds (past : List Happening) : List Deed := past.filterMap Happening.deed?

/-- How the other clients were served. -/
def otherCalls (past : List Happening) : List CaseLock.Served := past.filterMap Happening.served?

/-- From a lock that may hold any leases on, the run has come from its start to
here. Other clients may be served between any two steps, and the clock, which does
not go back, may go on by any time. -/
inductive Amid {α : Type} (first : CaseLock) (start : Procedure α) :
    List Happening → CaseLock → Procedure α → Prop
  | begins : Amid first start [] first start
  | goesOn {past : List Happening} {lock after : CaseLock} {p q : Procedure α} {now : Nat}
      {deed : Deed} (before : Amid first start past lock p) (onward : ∀ x ∈ past, x.now ≤ now)
      (step : Procedure.Step now lock p deed after q) :
      Amid first start (past ++ [.own now deed]) after q
  | isCalled {past : List Happening} {lock after : CaseLock} {p : Procedure α}
      {call : CaseLock.ClientCall} {answer : Option LockToken}
      (before : Amid first start past lock p) (onward : ∀ x ∈ past, x.now ≤ call.now)
      (ran : lock.serve call = .ok (answer, after)) :
      Amid first start (past ++ [.other ⟨call, answer⟩]) after p

/-- No other client is given a token of the run, or hands one back. -/
def TokensDiffer (past : List Happening) : Prop :=
  ∀ since token, .own since (.isGranted token) ∈ past →
    ∀ s ∈ otherCalls past, s.call.Spares token

/-- The lock holds on the key what it would if only the other clients had been served. -/
def AsOthersLeave (first : CaseLock) (past : List Happening) (key : String) (after : CaseLock) :
    Prop :=
  let served := (otherCalls past).filter fun s => s.call.key = key
  ∃ last, first.serveAll (served.map CaseLock.Served.toClientCall) = .ok (served, last) ∧
    after.lease? key = last.lease? key

namespace LockedCall

/-- With its lease the run has done what the run without the lock does, with this result. -/
structure Worked (c : LockedCall) (during : List Happening)
    (result : Except ServiceError Outcome) : Prop where
  work : ∀ deed ∈ ownDeeds during, deed.IsWork
  alone : ∀ time table,
    Procedure.Steps time table c.scheduled (ownDeeds during) table (.finish result)

/-- No lease of the run is left on its key. -/
structure LeavesKey (c : LockedCall) (since : Nat) (during : List Happening) (after : CaseLock) :
    Prop where
  /-- What the lock holds there another client got last and has not handed back. -/
  holds : ∀ lease, after.lease? c.crn = some lease ↔
    CaseLock.Current (otherCalls during) ⟨⟨c.crn, lease.token⟩, lease.expiresAt⟩
  /-- Others got the key only after the lease of the run had elapsed. -/
  late : ∀ s ∈ otherCalls during, ∀ g, s.grant? = some g → g.token.key = c.crn →
    since + c.service.leaseLength ≤ s.now
  free : (∀ s ∈ otherCalls during, ∀ g, s.grant? = some g → g.token.key ≠ c.crn) →
    after.lease? c.crn = none

/-- How a locked run returns: what it does last, with what result, and what the lock
holds then. -/
inductive Returns (c : LockedCall) (first : CaseLock) (past : List Happening) (now : Nat)
    (after : CaseLock) : Deed → Except ServiceError Outcome → Prop
  /-- It was refused as its first step, while the key was taken. -/
  | refused {held : Lease} (unseen : ownDeeds past = [])
      (taken : after.lease? c.crn = some held ∧ now < held.expiresAt)
      (everywhere : ∀ key, AsOthersLeave first past key after) :
      Returns c first past now after (.isRefused c.crn) (.error (.lockUnavailable c.crn))
  /-- It got its lease as its first step and released it as its last. -/
  | released {before during : List Happening} {since token : Nat}
      {result : Except ServiceError Outcome}
      (split : past = before ++ .own since (.isGranted ⟨c.crn, token⟩) :: during)
      (unseen : ownDeeds before = []) (worked : c.Worked during result)
      (left : c.LeavesKey since during after)
      (elsewhere : ∀ key ≠ c.crn, AsOthersLeave first past key after) :
      Returns c first past now after (.releases ⟨c.crn, token⟩) result

end LockedCall

section Histories
variable {α : Type} {first lock after : CaseLock} {start p q : Procedure α} {deed : Deed}
variable {past during : List Happening} {x : Happening} {now : Nat} {key : String}
variable {s : CaseLock.Served}

theorem ownDeeds_around {before : List Happening} :
    ownDeeds (before ++ .own now deed :: during) = ownDeeds before ++ deed :: ownDeeds during :=
  List.filterMap_append

@[simp] theorem ownDeeds_own :
    ownDeeds (past ++ [.own now deed]) = ownDeeds past ++ [deed] := List.filterMap_append

@[simp] theorem ownDeeds_other : ownDeeds (past ++ [.other s]) = ownDeeds past :=
  List.filterMap_append.trans (List.append_nil _)

@[simp] theorem otherCalls_own : otherCalls (past ++ [.own now deed]) = otherCalls past :=
  List.filterMap_append.trans (List.append_nil _)

@[simp] theorem otherCalls_other :
    otherCalls (past ++ [.other s]) = otherCalls past ++ [s] := List.filterMap_append

theorem mem_otherCalls : s ∈ otherCalls past ↔ .other s ∈ past := by
  rw [otherCalls, List.mem_filterMap]
  constructor
  · rintro ⟨_ | served, member, same⟩
    · cases same
    · cases same
      exact member
  · exact fun member => ⟨_, member, rfl⟩

theorem TokensDiffer.beginning (differ : TokensDiffer (past ++ [x])) : TokensDiffer past := by
  intro since token own s other
  refine differ since token (List.mem_append_left _ own) s (mem_otherCalls.mpr ?_)
  exact List.mem_append_left _ (mem_otherCalls.mp other)

theorem Amid.last_own {all : List Happening} (amid : Amid first start all after q)
    (split : all = past ++ [.own now deed]) :
    ∃ lock p, Amid first start past lock p ∧ Procedure.Step now lock p deed after q := by
  cases amid with
  | begins => simp at split
  | goesOn before onward step =>
    obtain ⟨rfl, same⟩ := List.append_inj' split rfl
    cases same
    exact ⟨_, _, before, step⟩
  | isCalled =>
    obtain ⟨-, same⟩ := List.append_inj' split rfl
    cases same

/-- What is done with leases on other keys. -/
def Deed.IsElsewhere (key : String) : Deed → Prop
  | .isGranted token | .releases token => token.key ≠ key
  | .worksAlone | .touches _ | .isRefused _ | .breaksOff _ => True

theorem Deed.IsWork.isElsewhere (work : deed.IsWork) : deed.IsElsewhere key := by
  cases deed with
  | worksAlone | touches => trivial
  | isGranted | isRefused | breaksOff | releases => exact work.elim

theorem Procedure.Step.lease?_eq (step : Procedure.Step now lock p deed after q)
    (elsewhere : deed.IsElsewhere key) : after.lease? key = lock.lease? key := by
  cases step with
  | tell | askToday | fetch | record | created | rejected | overflow => rfl
  | granted token next answer =>
    rcases CaseLock.acquire_eq_ok.mp answer with ⟨-, -, rfl⟩ | ⟨-, -, ⟨⟩, rfl⟩
    · rfl
    · exact (CaseLock.lease?_insert _ _ _ _).trans (if_neg (Ne.symm elsewhere))
  | refused token next answer =>
    rcases CaseLock.acquire_eq_ok.mp answer with ⟨-, -, rfl⟩ | ⟨-, -, none, -⟩
    · rfl
    · cases none
  | release token =>
    refine Option.ext fun lease => ?_
    rw [CaseLock.lease?_release, and_iff_left]
    exact fun same => elsewhere (congrArg LockToken.key same).symm

theorem AsOthersLeave.step (leaves : AsOthersLeave first past key lock)
    (step : Procedure.Step now lock p deed after q) (elsewhere : deed.IsElsewhere key) :
    AsOthersLeave first past key after := by
  obtain ⟨last, ran, same⟩ := leaves
  exact ⟨last, ran, (step.lease?_eq elsewhere).trans same⟩

/-- A run does not matter for the keys that it leaves alone. -/
theorem Amid.asOthersLeave (amid : Amid first start past lock p)
    (elsewhere : ∀ deed ∈ ownDeeds past, deed.IsElsewhere key) :
    AsOthersLeave first past key lock := by
  induction amid with
  | begins => exact ⟨first, rfl, rfl⟩
  | goesOn before onward step ih =>
    rw [ownDeeds_own, List.forall_mem_append] at elsewhere
    rw [AsOthersLeave, otherCalls_own]
    exact (ih elsewhere.1).step step (elsewhere.2 _ List.mem_cons_self)
  | @isCalled past lock after p call answer before onward ran ih =>
    rw [ownDeeds_other] at elsewhere
    obtain ⟨last, others, same⟩ := ih elsewhere
    rw [AsOthersLeave, otherCalls_other, List.filter_append]
    by_cases about : call.call.key = key
    · subst about
      obtain ⟨next, again, alike⟩ := CaseLock.serve_congr ran same.symm
      refine ⟨next, ?_, alike.symm⟩
      simpa using CaseLock.serveAll_concat others again
    · refine ⟨last, ?_, (CaseLock.lease?_serve_of_ne ran about).trans same⟩
      simpa [about] using others

end Histories

theorem Procedure.Steps.concat {α : Type} {now : Nat} {lock middle after : CaseLock}
    {p q r : Procedure α} {deeds : List Deed} {deed : Deed}
    (steps : Steps now lock p deeds middle q) (last : Step now middle q deed after r) :
    Steps now lock p (deeds ++ [deed]) after r := by
  induction steps with
  | none => exact .more last .none
  | more first rest ih => exact .more first (ih last)

/-! How far a locked run has come -/

namespace LockedCall
variable {c : LockedCall} {first lock after : CaseLock} {before past during : List Happening}
variable {since token now : Nat} {deed : Deed} {result : Except ServiceError Outcome}
variable {p q rest : Procedure (Except ServiceError Outcome)}

/-- The call that got the run its lease. -/
def entry (c : LockedCall) (since token : Nat) : CaseLock.Served :=
  ⟨⟨since, .acquire c.crn c.service.leaseLength token⟩, some ⟨c.crn, token⟩⟩

/-- What the run has done since it got its lease, and what has become of that. -/
structure Tenure (c : LockedCall) (before during : List Happening) (since token : Nat)
    (lock : CaseLock) (rest : Procedure (Except ServiceError Outcome)) : Prop where
  unseen : ownDeeds before = []
  free : rest.LockFree
  works : ∀ deed ∈ ownDeeds during, deed.IsWork
  alone : ∀ time table, Procedure.Steps time table c.scheduled (ownDeeds during) table rest
  follows : CaseLock.Follows (c.entry since token)
    ⟨⟨c.crn, token⟩, since + c.service.leaseLength⟩ (otherCalls during) lock

/-- What is left of a run that began as a locked run. -/
inductive Phase (c : LockedCall) (past : List Happening) (lock : CaseLock) :
    Procedure (Except ServiceError Outcome) → Prop
  | waits (unseen : ownDeeds past = []) : Phase c past lock c.procedure
  | holds {before during : List Happening} {since token : Nat}
      {rest : Procedure (Except ServiceError Outcome)}
      (split : past = before ++ .own since (.isGranted ⟨c.crn, token⟩) :: during)
      (tenure : c.Tenure before during since token lock rest) :
      Phase c past lock (c.holding ⟨c.crn, token⟩ rest)
  | finished (result : Except ServiceError Outcome) : Phase c past lock (.finish result)
  | brokenOff (cause : Overflow) : Phase c past lock (.breakOff cause)

theorem Tenure.works_on (tenure : c.Tenure before during since token lock rest)
    (step : Procedure.Step now lock rest deed after q) :
    c.Tenure before (during ++ [.own now deed]) since token after q := by
  obtain ⟨work, rfl, free, anywhere⟩ := tenure.free.step step
  refine ⟨tenure.unseen, free, ?_, fun time table => ?_, ?_⟩
  · rw [ownDeeds_own, List.forall_mem_append]
    exact ⟨tenure.works, List.forall_mem_singleton.mpr work⟩
  · rw [ownDeeds_own]
    exact (tenure.alone time table).concat (anywhere time table)
  · rw [otherCalls_own]
    exact tenure.follows

theorem Tenure.isCalled {call : CaseLock.ClientCall} {answer : Option LockToken}
    (tenure : c.Tenure before during since token lock rest)
    (ran : lock.serve call = .ok (answer, after))
    (order : ∀ s ∈ otherCalls during, s.now ≤ call.now) (spares : call.call.Spares ⟨c.crn, token⟩) :
    c.Tenure before (during ++ [.other ⟨call, answer⟩]) since token after rest := by
  refine ⟨tenure.unseen, tenure.free, ?_, fun time table => ?_, ?_⟩
  · rw [ownDeeds_other]
    exact tenure.works
  · rw [ownDeeds_other]
    exact tenure.alone time table
  · rw [otherCalls_other]
    exact tenure.follows.serve ran order spares

/-- Once the lease is released, only leases of others are left on its key. -/
theorem Tenure.leavesKey (tenure : c.Tenure before during since token lock rest) :
    c.LeavesKey since during (lock.release ⟨c.crn, token⟩) := by
  refine ⟨tenure.follows.release, tenure.follows.late, fun untouched => ?_⟩
  refine Option.eq_none_iff_forall_ne_some.mpr fun lease leased => ?_
  obtain ⟨_, ⟨_, s, split, granted⟩, -⟩ := (tenure.follows.release lease).mp leased
  exact untouched s (by simp [split]) _ granted rfl

/-- After each step the run is in one of its phases. -/
theorem Phase.step (phase : c.Phase past lock p) (step : Procedure.Step now lock p deed after q) :
    c.Phase (past ++ [.own now deed]) after q := by
  cases phase with
  | waits unseen =>
    rcases first_step step with
      ⟨token, answer, rfl, rfl⟩ | ⟨-, rfl, rfl, rfl⟩ | ⟨rfl, rfl, cause, rfl⟩
    · obtain ⟨-, none, -⟩ | ⟨-, -, -, rfl⟩ := CaseLock.acquire_eq_ok.mp answer
      · cases none
      · refine .holds rfl ⟨unseen, c.lockFree_scheduled, ?_, fun time table => .none, .start lock⟩
        exact fun deed member => absurd member List.not_mem_nil
    · exact .finished _
    · exact .brokenOff cause
  | holds split tenure =>
    rcases later_step step with ⟨more, work, rfl⟩ | ⟨result, -, -, -, rfl⟩
    · exact .holds (by simp [split]) (tenure.works_on work)
    · exact .finished result
  | finished => cases step
  | brokenOff => cases step

theorem Phase.isCalled {call : CaseLock.ClientCall} {answer : Option LockToken}
    (phase : c.Phase past lock p) (ran : lock.serve call = .ok (answer, after))
    (onward : ∀ x ∈ past, x.now ≤ call.now)
    (differ : TokensDiffer (past ++ [.other ⟨call, answer⟩])) :
    c.Phase (past ++ [.other ⟨call, answer⟩]) after p := by
  cases phase with
  | waits unseen => exact .waits (by rw [ownDeeds_other, unseen])
  | @holds before during since token rest split tenure =>
    have longer : past ++ [.other ⟨call, answer⟩] = before ++
        .own since (.isGranted ⟨c.crn, token⟩) :: (during ++ [.other ⟨call, answer⟩]) := by
      simp [split]
    refine .holds longer (tenure.isCalled ran (fun s other => ?_) ?_)
    · exact onward (.other s) (by simp [split, mem_otherCalls.mp other])
    · exact differ since _ (by simp [split]) ⟨call, answer⟩ (by simp)
  | finished result => exact .finished result
  | brokenOff cause => exact .brokenOff cause

theorem phase_of_amid (amid : Amid first c.procedure past lock p) (differ : TokensDiffer past) :
    c.Phase past lock p := by
  induction amid with
  | begins => exact .waits rfl
  | goesOn before onward step ih => exact (ih differ.beginning).step step
  | isCalled before onward ran ih => exact (ih differ.beginning).isCalled ran onward differ

theorem holding_ne_finish {token : LockToken} : c.holding token rest ≠ .finish result := by
  intro same
  cases rest <;> cases same

/-- How the run returns, by the phase that it was in. -/
theorem Phase.returns (phase : c.Phase past lock p) (amid : Amid first c.procedure past lock p)
    (step : Procedure.Step now lock p deed after (.finish result)) :
    c.Returns first past now after deed result := by
  cases phase with
  | waits unseen =>
    rcases first_step step with
      ⟨_, _, _, ended⟩ | ⟨⟨held, taken⟩, rfl, rfl, ended⟩ | ⟨_, _, _, ended⟩
    · cases ended
    · cases ended
      refine .refused unseen taken fun key => amid.asOthersLeave fun deed member => ?_
      rw [unseen] at member
      cases member
    · cases ended
  | @holds before during since token rest split tenure =>
    rcases later_step step with ⟨_, _, ended⟩ | ⟨result, rfl, rfl, rfl, ended⟩
    · exact absurd ended.symm holding_ne_finish
    · cases ended
      refine .released split tenure.unseen ⟨tenure.works, tenure.alone⟩ tenure.leavesKey
        fun key other => ?_
      refine (amid.asOthersLeave fun deed did => ?_).step step other.symm
      rw [split, ownDeeds_around, tenure.unseen, List.nil_append] at did
      rcases List.mem_cons.mp did with rfl | later
      · exact other.symm
      · exact (tenure.works deed later).isElsewhere
  | finished => cases step
  | brokenOff => cases step

/-- Whatever the lock and the others answer, a locked run does nothing without a lease,
and else what the same run does without the lock, with the same result, and then
releases its lease. If the lock is the one kept in memory, no lease of the run is
left when it returns; those of other clients are, whatever they did meanwhile. -/
theorem locked_runs_leave_the_lock_clean (c : LockedCall) :
    (∀ (σ : Type) (around : Surroundings σ) (before : σ),
      c.LeavesClean around before (c.procedure.runIn around before)) ∧
    ∀ (first : CaseLock) (past : List Happening) (now : Nat) (deed : Deed) (after : CaseLock)
      (result : Except ServiceError Outcome),
      Amid first c.procedure (past ++ [.own now deed]) after (.finish result) →
        TokensDiffer past → c.Returns first past now after deed result := by
  refine ⟨fun σ around before => c.leavesClean around before, ?_⟩
  intro first past now deed after result amid differ
  obtain ⟨lock, p, earlier, step⟩ := amid.last_own rfl
  exact (phase_of_amid earlier differ).returns earlier step

/-- A run replaces an elapsed lease, its details cannot be fetched, and by the time it
returns its own lease has elapsed and is replaced: the new one stays, as does the
lease on another key. -/
theorem late_return_keeps_the_new_lease :
    let c : LockedCall := ⟨⟨{}⟩, ⟨0, by decide⟩, "X", 1, ⟨.manual, ""⟩⟩
    let first : CaseLock := ⟨[("X", ⟨9, 5⟩), ("Y", ⟨8, 100⟩)]⟩
    let past : List Happening := [.own 10 (.isGranted ⟨"X", 1⟩), .own 10 .worksAlone,
      .own 20 (.touches (.fetch "X" 1)), .other ⟨⟨60010, .acquire "X" 60000 2⟩, some ⟨"X", 2⟩⟩]
    let result := .error (.caseSystem "X" "down")
    ∃ after, Amid first c.procedure (past ++ [.own 60020 (.releases ⟨"X", 1⟩)]) after
        (.finish result) ∧ TokensDiffer past ∧
      c.Returns first past 60020 after (.releases ⟨"X", 1⟩) result ∧
      after.lease? "X" = some ⟨2, 120010⟩ ∧ after.lease? "Y" = some ⟨8, 100⟩ := by
  intro c first past result
  have start : Amid first c.procedure [] first c.procedure := .begins
  have elapsed : ∀ held, first.lease? "X" = some held → held.expiresAt ≤ 10 := by
    simp [first, CaseLock.lease?]
  have entered : Amid first c.procedure (past.take 1) _ _ := start.goesOn (by simp)
    (.granted 1 _ (CaseLock.acquire_eq_ok.mpr (.inr ⟨elapsed, by decide, rfl, rfl⟩)))
  have told : Amid first c.procedure (past.take 2) _ _ :=
    entered.goesOn (by simp [past, Happening.now]) (.tell _ _)
  have fetched : Amid first c.procedure (past.take 3) _ _ :=
    told.goesOn (by simp [past, Happening.now]) (.fetch _ _ _ (.error "down"))
  have served : Amid first c.procedure past _ _ :=
    fetched.isCalled (by simp [past, Happening.now])
      (CaseLock.acquire_eq_ok.mpr (.inr ⟨by decide, by decide, rfl, rfl⟩))
  have returned : Amid first c.procedure (past ++ [.own 60020 (.releases ⟨"X", 1⟩)]) _
      (.finish result) := served.goesOn (by simp [past, Happening.now]) (.release _ _)
  have differ : TokensDiffer past := by
    intro since token own s other
    simp only [past, List.mem_cons, Happening.own.injEq, Deed.isGranted.injEq, mem_otherCalls,
      Happening.other.injEq, reduceCtorEq, and_false, false_or, or_false, List.not_mem_nil]
      at own other
    rw [own.2, other]
    exact fun same => absurd same (by decide)
  exact ⟨_, returned, differ,
    (locked_runs_leave_the_lock_clean c).2 first past 60020 _ _ result returned differ, rfl, rfl⟩

end LockedCall
end UnpaidWork
