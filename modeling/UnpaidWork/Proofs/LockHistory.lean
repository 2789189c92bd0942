import UnpaidWork.CaseLock
import UnpaidWork.Proofs.Lengths

/-!
Everything that clients ask of one lock, as a history of served calls. The lock
keeps one lease for a key, the latest, but the history holds every lease ever
granted. A lease that was replaced had ended by then, so what the lock refuses
is exactly what some granted lease still forbids. Tokens are compared by their
values; nothing here depends on how they are made.
-/
namespace UnpaidWork
namespace CaseLock

/-- What a client asks of the lock. An acquisition brings the token it is to get. -/
inductive LockCall where
  | acquire (key : String) (length token : Nat)
  | release (token : LockToken)

/-- The key that a call is about. -/
def LockCall.key : LockCall → String
  | .acquire key _ _ => key
  | .release token => token.key

/-- A call and what the clock shows when it is served. -/
structure ClientCall where
  now : Nat
  call : LockCall

/-- If the call is granted a lease, then the clock can show its end. -/
def ClientCall.EndsInTime (c : ClientCall) : Prop :=
  match c.call with
  | .acquire _ length _ => c.now + length < clockEnd
  | .release _ => True

/-- A call with the answer it got. A release gets none. -/
structure Served extends ClientCall where
  answer : Option LockToken

/-- A lease as its client knows it. -/
structure Grant where
  token : LockToken
  expiresAt : Nat

/-- The lease that a served call granted. -/
def Served.grant? (s : Served) : Option Grant :=
  match s.call, s.answer with
  | .acquire _ length _, some token => some ⟨token, s.now + length⟩
  | _, _ => none

/-- Serves one call. -/
def serve (lock : CaseLock) (c : ClientCall) : Except Overflow (Option LockToken × CaseLock) :=
  match c.call with
  | .acquire key length token => (lock.acquire c.now length key token).result
  | .release token => .ok (none, lock.release token)

/-- Serves calls one after the other, whoever makes them. -/
def serveAll (lock : CaseLock) : List ClientCall → Except Overflow (List Served × CaseLock)
  | [] => .ok ([], lock)
  | c :: rest =>
    (lock.serve c).bind fun (answer, next) =>
      (next.serveAll rest).map fun (served, last) => (⟨c, answer⟩ :: served, last)

section Serving
variable {lock next last other : CaseLock} {key : String} {now length token : Nat}
variable {answer : Option LockToken} {c : ClientCall} {calls : List ClientCall}
variable {served : List Served}

/-- An acquisition is refused while the lease on its key has not ended, and else
it gets the token that it brought. -/
theorem acquire_eq_ok : (lock.acquire now length key token).result = .ok (answer, next) ↔
    ((∃ held, lock.lease? key = some held ∧ now < held.expiresAt) ∧ answer = none ∧ next = lock) ∨
    ((∀ held, lock.lease? key = some held → held.expiresAt ≤ now) ∧
      now + length < clockEnd ∧ answer = some ⟨key, token⟩ ∧
      next = lock.insert key ⟨token, now + length⟩) := by
  have granted : lock.grant now length key token = .ok (answer, next) ↔
      now + length < clockEnd ∧ answer = some ⟨key, token⟩ ∧
        next = lock.insert key ⟨token, now + length⟩ := by
    unfold grant
    split
    · rename_i fits
      simp only [Except.ok.injEq, Prod.mk.injEq, fits, true_and, eq_comm]
    · rename_i late
      simp [late]
  unfold acquire
  cases lease : lock.lease? key with
  | none => simp [granted]
  | some held =>
    by_cases lasting : now < held.expiresAt
    · simp [lasting, Nat.not_le.mpr lasting, eq_comm]
    · simp [lasting, Nat.not_lt.mp lasting, Except.bind, granted]

/-- A release ends the lease with its token and no other. -/
theorem lease?_release {token : LockToken} {lease : Lease} :
    (lock.release token).lease? key = some lease ↔
      lock.lease? key = some lease ∧ (⟨key, lease.token⟩ : LockToken) ≠ token := by
  unfold release
  obtain ⟨name, value⟩ := token
  simp only [ne_eq, LockToken.mk.injEq, not_and]
  cases found : lock.lease? name with
  | none =>
    simp only [iff_self_and]
    rintro held rfl
    rw [found] at held
    cases held
  | some held =>
    by_cases own : held.token = value
    · simp only [own, if_true, lease?_erase]
      by_cases same : key = name
      · subst same
        rw [if_pos rfl, found]
        constructor
        · rintro ⟨⟩
        · rintro ⟨⟨⟩, different⟩
          exact absurd own (different rfl)
      · simp [same]
    · simp only [own, if_false, iff_self_and]
      rintro leased rfl same
      rw [found, Option.some.injEq] at leased
      subst leased
      exact own same

theorem serveAll_cons {rest : List ClientCall} :
    lock.serveAll (c :: rest) = .ok (served, last) ↔ ∃ answer next more,
      lock.serve c = .ok (answer, next) ∧ next.serveAll rest = .ok (more, last) ∧
        served = ⟨c, answer⟩ :: more := by
  rw [serveAll, bind_eq_ok]
  constructor
  · rintro ⟨⟨answer, next⟩, first, rest⟩
    obtain ⟨⟨more, final⟩, others, same⟩ := map_eq_ok.mp rest
    cases same
    exact ⟨answer, next, more, first, others, rfl⟩
  · rintro ⟨answer, next, more, first, others, rfl⟩
    exact ⟨(answer, next), first, map_eq_ok.mpr ⟨(more, last), others, rfl⟩⟩

end Serving

/-! What a history holds -/

/-- The lease `g` was granted in the history, and `since` was served after it. -/
def Granted (past : List Served) (g : Grant) (since : List Served) : Prop :=
  ∃ before s, past = before ++ s :: since ∧ s.grant? = some g

namespace Grant

/-- Its token is among what was released. -/
def HandedBack (g : Grant) (since : List Served) : Prop :=
  ∃ s ∈ since, s.call = .release g.token

/-- Another lease was granted on its key. -/
def Replaced (g : Grant) (since : List Served) : Prop :=
  ∃ s ∈ since, ∃ later, s.grant? = some later ∧ later.token.key = g.token.key

/-- At a time after `since` the lease has neither been handed back nor expired. -/
def Stands (g : Grant) (since : List Served) (now : Nat) : Prop :=
  ¬ g.HandedBack since ∧ now < g.expiresAt

end Grant

/-- Every lease that was granted on the key has been handed back since or has expired. -/
def Free (past : List Served) (key : String) (now : Nat) : Prop :=
  ∀ g since, Granted past g since → g.token.key = key → g.HandedBack since ∨ g.expiresAt ≤ now

/-- The latest lease on its key, if it was not handed back. -/
def Current (past : List Served) (g : Grant) : Prop :=
  ∃ since, Granted past g since ∧ ¬ g.HandedBack since ∧ ¬ g.Replaced since

/-- The answer that a call must get after what was served before it. -/
def Served.Answers (s : Served) (past : List Served) : Prop :=
  match s.call with
  | .acquire key _ token =>
    Free past key s.now ∧ s.answer = some ⟨key, token⟩ ∨ ¬ Free past key s.now ∧ s.answer = none
  | .release _ => s.answer = none

/-- A place in a history that one more entry was added to. -/
theorem split_concat {α : Type} {past before since : List α} {s x : α} :
    past ++ [s] = before ++ x :: since ↔ since = [] ∧ before = past ∧ x = s ∨
      ∃ earlier, since = earlier ++ [s] ∧ past = before ++ x :: earlier := by
  constructor
  · intro split
    rcases List.eq_nil_or_concat since with rfl | ⟨earlier, last, rfl⟩
    · obtain ⟨rfl, same⟩ := List.append_inj' split rfl
      exact .inl ⟨rfl, rfl, (List.singleton_inj.mp same).symm⟩
    · have regrouped : past ++ [s] = (before ++ x :: earlier) ++ [last] := by simpa using split
      obtain ⟨rfl, same⟩ := List.append_inj' regrouped rfl
      exact .inr ⟨earlier, by rw [List.concat_eq_append, List.singleton_inj.mp same], rfl⟩
  · rintro (⟨rfl, rfl, rfl⟩ | ⟨earlier, rfl, rfl⟩)
    · rfl
    · simp

section History
variable {past before since earlier since' : List Served} {s x : Served} {g g' : Grant}

theorem granted_concat : Granted (past ++ [s]) g since ↔
    since = [] ∧ s.grant? = some g ∨
      ∃ earlier, since = earlier ++ [s] ∧ Granted past g earlier := by
  simp only [Granted, split_concat]
  constructor
  · rintro ⟨before, x, ⟨rfl, rfl, rfl⟩ | ⟨earlier, rfl, rfl⟩, granted⟩
    · exact .inl ⟨rfl, granted⟩
    · exact .inr ⟨earlier, rfl, before, x, rfl, granted⟩
  · rintro (⟨rfl, granted⟩ | ⟨earlier, rfl, before, x, rfl, granted⟩)
    · exact ⟨past, s, .inl ⟨rfl, rfl, rfl⟩, granted⟩
    · exact ⟨before, x, .inr ⟨earlier, rfl, rfl⟩, granted⟩

theorem handedBack_concat :
    g.HandedBack (since ++ [s]) ↔ g.HandedBack since ∨ s.call = .release g.token := by
  simp [Grant.HandedBack, or_and_right, exists_or]

theorem replaced_concat : g.Replaced (since ++ [s]) ↔
    g.Replaced since ∨ ∃ later, s.grant? = some later ∧ later.token.key = g.token.key := by
  simp [Grant.Replaced, or_and_right, exists_or]

/-- One more call grants a lease, or leaves current what it neither hands back nor replaces. -/
theorem current_concat : Current (past ++ [s]) g ↔ s.grant? = some g ∨
    Current past g ∧ s.call ≠ .release g.token ∧
      ∀ later, s.grant? = some later → later.token.key ≠ g.token.key := by
  constructor
  · rintro ⟨since, granted, kept, latest⟩
    rcases granted_concat.mp granted with ⟨-, now⟩ | ⟨earlier, rfl, before⟩
    · exact .inl now
    · rw [handedBack_concat, not_or] at kept
      rw [replaced_concat, not_or, not_exists] at latest
      exact .inr ⟨⟨earlier, before, kept.1, latest.1⟩, kept.2, fun later granted same =>
        latest.2 later ⟨granted, same⟩⟩
  · rintro (now | ⟨⟨earlier, before, kept, latest⟩, unreleased, unreplaced⟩)
    · exact ⟨[], granted_concat.mpr (.inl ⟨rfl, now⟩), by simp [Grant.HandedBack],
        by simp [Grant.Replaced]⟩
    · refine ⟨earlier ++ [s], granted_concat.mpr (.inr ⟨earlier, rfl, before⟩), ?_, ?_⟩
      · rw [handedBack_concat]
        exact not_or.mpr ⟨kept, unreleased⟩
      · rw [replaced_concat]
        exact not_or.mpr ⟨latest, fun ⟨later, granted, same⟩ => unreplaced later granted same⟩

/-- Of two leases on one key, one was replaced, unless they are the same. -/
theorem Granted.eq_or_replaced (first : Granted past g since) (second : Granted past g' since')
    (same : g.token.key = g'.token.key) :
    g = g' ∧ since = since' ∨ g.Replaced since ∨ g'.Replaced since' := by
  obtain ⟨before, s, rfl, granted⟩ := first
  obtain ⟨before', s', split, granted'⟩ := second
  rcases List.append_eq_append_iff.mp split with ⟨between, -, rest⟩ | ⟨between, -, rest⟩
  · cases between with
    | nil =>
      cases rest
      exact .inl ⟨Option.some.inj (granted.symm.trans granted'), rfl⟩
    | cons _ between =>
      cases rest
      exact .inr (.inl ⟨s', by simp, g', granted', same.symm⟩)
  · cases between with
    | nil =>
      cases rest
      exact .inl ⟨Option.some.inj (granted.symm.trans granted'), rfl⟩
    | cons _ between =>
      cases rest
      exact .inr (.inr ⟨s, by simp, g, granted, same⟩)

end History

/-! The lock against its history -/

/-- If the lock holds on a key what is current there, then it does so after the next call. -/
theorem holds_serve {past : List Served} {lock next : CaseLock} {c : ClientCall}
    {answer : Option LockToken} {key : String} (ran : lock.serve c = .ok (answer, next))
    (holds : ∀ lease, lock.lease? key = some lease ↔
      Current past ⟨⟨key, lease.token⟩, lease.expiresAt⟩) (lease : Lease) :
    next.lease? key = some lease ↔
      Current (past ++ [⟨c, answer⟩]) ⟨⟨key, lease.token⟩, lease.expiresAt⟩ := by
  obtain ⟨now, call⟩ := c
  rw [current_concat, ← holds]
  cases call with
  | release token =>
    cases ran
    rw [lease?_release]
    simp [Served.grant?, eq_comm]
  | acquire asked length token =>
    rcases acquire_eq_ok.mp ran with ⟨-, rfl, rfl⟩ | ⟨-, -, rfl, rfl⟩
    · simp [Served.grant?]
    · rw [lease?_insert]
      by_cases same : key = asked
      · subst same
        cases lease
        simp [Served.grant?]
      · simp [Served.grant?, same, Ne.symm same]

/-- The lock holds the current leases of its history and no other ones; replaced
leases have ended, and all calls got the answers they must get. -/
structure Recorded (past : List Served) (clock : Nat) (lock : CaseLock) : Prop where
  holds : ∀ key lease, lock.lease? key = some lease ↔
    Current past ⟨⟨key, lease.token⟩, lease.expiresAt⟩
  replaced : ∀ g since, Granted past g since → g.Replaced since →
    g.HandedBack since ∨ g.expiresAt ≤ clock
  answered : ∀ before s since, past = before ++ s :: since → s.Answers before

namespace Recorded
variable {past served : List Served} {clock now : Nat} {lock next : CaseLock} {key : String}
variable {s : Served} {c : ClientCall} {answer : Option LockToken} {calls : List ClientCall}

theorem empty : Recorded [] 0 .empty := by
  refine ⟨fun key lease => ?_, ?_, ?_⟩
  · simp [Current, Granted]
  · rintro g since ⟨before, s, split, -⟩
    simp at split
  · intro before s since split
    simp at split

theorem later (recorded : Recorded past clock lock) (order : clock ≤ now) :
    Recorded past now lock :=
  ⟨recorded.holds, fun g since granted again =>
    (recorded.replaced g since granted again).imp_right fun ended => Nat.le_trans ended order,
    recorded.answered⟩

/-- The lock knows whether a key is free from the one lease that it holds. -/
theorem free_iff (recorded : Recorded past clock lock) (order : clock ≤ now) : Free past key now ↔
    ∀ held, lock.lease? key = some held → held.expiresAt ≤ now := by
  constructor
  · intro free held leased
    obtain ⟨since, granted, kept, -⟩ := (recorded.holds key held).mp leased
    exact (free _ since granted rfl).resolve_left kept
  · rintro expired g since granted rfl
    by_cases handed : g.HandedBack since
    · exact .inl handed
    · by_cases again : g.Replaced since
      · exact (recorded.later order).replaced g since granted again
      · have current : Current past g := ⟨since, granted, handed, again⟩
        have leased : lock.lease? g.token.key = some ⟨g.token.token, g.expiresAt⟩ :=
          (recorded.holds _ _).mpr current
        exact .inr (expired _ leased)

/-- One more call. It has to be answered as it must be, and the lock to hold
what is current then. -/
theorem concat (recorded : Recorded past clock lock) (order : clock ≤ s.now)
    (answers : s.Answers past)
    (free : ∀ later, s.grant? = some later → Free past later.token.key s.now)
    (holds : ∀ key lease, next.lease? key = some lease ↔
      Current (past ++ [s]) ⟨⟨key, lease.token⟩, lease.expiresAt⟩) :
    Recorded (past ++ [s]) s.now next := by
  refine ⟨holds, fun g since granted again => ?_, fun before x since split => ?_⟩
  · rcases granted_concat.mp granted with ⟨rfl, -⟩ | ⟨earlier, rfl, before⟩
    · obtain ⟨x, member, -⟩ := again
      cases member
    · have ended : g.HandedBack earlier ∨ g.expiresAt ≤ s.now := by
        rcases replaced_concat.mp again with before' | ⟨later, now, same⟩
        · exact (recorded.later order).replaced g earlier before before'
        · exact free later now g earlier before same.symm
      exact ended.imp_left fun handed => handedBack_concat.mpr (.inl handed)
  · rcases split_concat.mp split with ⟨-, rfl, rfl⟩ | ⟨earlier, rfl, before⟩
    · exact answers
    · exact recorded.answered _ _ _ before

/-- The next call is answered, as it must be. -/
theorem serve (recorded : Recorded past clock lock) (order : clock ≤ c.now)
    (inTime : c.EndsInTime) : ∃ answer next, lock.serve c = .ok (answer, next) ∧
      Recorded (past ++ [⟨c, answer⟩]) c.now next := by
  obtain ⟨now, call⟩ := c
  have holds {answer : Option LockToken} {next : CaseLock}
      (ran : lock.serve ⟨now, call⟩ = .ok (answer, next)) (key : String) (lease : Lease) :=
    holds_serve ran (recorded.holds key) lease
  cases call with
  | release token =>
    refine ⟨none, lock.release token, rfl, recorded.concat order rfl ?_ (holds rfl)⟩
    rintro later ⟨⟩
  | acquire key length token =>
    have known : Free past key now ↔ ∀ held, lock.lease? key = some held → held.expiresAt ≤ now :=
      recorded.free_iff order
    by_cases free : Free past key now
    · have ran : lock.serve ⟨now, .acquire key length token⟩ = .ok (some ⟨key, token⟩, _) :=
        acquire_eq_ok.mpr (.inr ⟨known.mp free, inTime, rfl, rfl⟩)
      refine ⟨_, _, ran, recorded.concat order (.inl ⟨free, rfl⟩) ?_ (holds ran)⟩
      rintro later ⟨⟩
      exact free
    · have refused : ∃ held, lock.lease? key = some held ∧ now < held.expiresAt := by
        rw [known] at free
        simpa using free
      have ran : lock.serve ⟨now, .acquire key length token⟩ = .ok (none, lock) :=
        acquire_eq_ok.mpr (.inl ⟨refused, rfl, rfl⟩)
      refine ⟨_, _, ran, recorded.concat order (.inr ⟨free, rfl⟩) ?_ (holds ran)⟩
      rintro later ⟨⟩

/-- All calls are answered, and the lock ends with what is current at the last of them. -/
theorem serveAll (recorded : Recorded past clock lock)
    (ordered : calls.Pairwise fun c d => c.now ≤ d.now) (order : ∀ c ∈ calls, clock ≤ c.now)
    (inTime : ∀ c ∈ calls, c.EndsInTime) :
    ∃ served last final, lock.serveAll calls = .ok (served, last) ∧
      served.map Served.toClientCall = calls ∧ Recorded (past ++ served) final last ∧
      ∀ now, clock ≤ now → (∀ c ∈ calls, c.now ≤ now) → final ≤ now := by
  induction calls generalizing past clock lock with
  | nil =>
    rw [← List.append_nil past] at recorded
    exact ⟨[], lock, clock, rfl, rfl, recorded, fun now after _ => after⟩
  | cons c rest ih =>
    obtain ⟨first, orderedRest⟩ := List.pairwise_cons.mp ordered
    obtain ⟨answer, next, ran, recorded'⟩ :=
      recorded.serve (order c List.mem_cons_self) (inTime c List.mem_cons_self)
    obtain ⟨more, last, final, ranRest, same, whole, after⟩ :=
      ih recorded' orderedRest first fun d member => inTime d (List.mem_cons_of_mem c member)
    rw [List.append_assoc, List.singleton_append] at whole
    refine ⟨⟨c, answer⟩ :: more, last, final,
      serveAll_cons.mpr ⟨answer, next, more, ran, ranRest, rfl⟩, ?_, whole, ?_⟩
    · rw [List.map_cons, same]
    · exact fun now _ bound => after now (bound c List.mem_cons_self) fun d member =>
        bound d (List.mem_cons_of_mem c member)

/-- Of the leases on one key at most one stands. -/
theorem one_stands {g g' : Grant} {since since' : List Served} (recorded : Recorded past clock lock)
    (granted : Granted past g since) (granted' : Granted past g' since')
    (same : g.token.key = g'.token.key) (stands : g.Stands since clock)
    (stands' : g'.Stands since' clock) : g = g' ∧ since = since' := by
  rcases granted.eq_or_replaced granted' same with equal | again | again
  · exact equal
  · rcases recorded.replaced g since granted again with handed | expired
    · exact absurd handed stands.1
    · exact absurd stands.2 (Nat.not_lt.mpr expired)
  · rcases recorded.replaced g' since' granted' again with handed | expired
    · exact absurd handed stands'.1
    · exact absurd stands'.2 (Nat.not_lt.mpr expired)

/-- A token whose leases were all handed back or replaced releases nothing. -/
theorem release_ended {token : LockToken} (recorded : Recorded past clock lock)
    (ended : ∀ g since, Granted past g since → g.token = token →
      g.HandedBack since ∨ g.Replaced since) :
    (lock.release token).lease? key = lock.lease? key := by
  refine Option.ext fun lease => ?_
  rw [lease?_release]
  refine and_iff_left_of_imp fun leased same => ?_
  obtain ⟨since, granted, kept, latest⟩ := (recorded.holds key lease).mp leased
  rcases ended _ since granted same with handed | again
  · exact kept handed
  · exact latest again

end Recorded

/-! Other keys -/

section Keys
variable {lock next last other : CaseLock} {key : String} {answer : Option LockToken}
variable {c : ClientCall} {calls : List ClientCall} {served : List Served}

/-- A call leaves the leases of all other keys as they are. -/
theorem lease?_serve_of_ne (ran : lock.serve c = .ok (answer, next))
    (different : c.call.key ≠ key) : next.lease? key = lock.lease? key := by
  obtain ⟨now, call⟩ := c
  cases call with
  | release token =>
    cases ran
    refine Option.ext fun lease => ?_
    rw [lease?_release, and_iff_left]
    exact fun same => different (congrArg LockToken.key same).symm
  | acquire key' length token =>
    rcases acquire_eq_ok.mp ran with ⟨-, -, rfl⟩ | ⟨-, -, -, rfl⟩
    · rfl
    · exact (lease?_insert _ _ _ _).trans (if_neg (Ne.symm different))

/-- Two locks with the same lease on the key of a call serve it alike. -/
theorem serve_congr (ran : lock.serve c = .ok (answer, next))
    (same : other.lease? c.call.key = lock.lease? c.call.key) :
    ∃ otherNext, other.serve c = .ok (answer, otherNext) ∧
      otherNext.lease? c.call.key = next.lease? c.call.key := by
  obtain ⟨now, call⟩ := c
  cases call with
  | release token =>
    cases ran
    refine ⟨other.release token, rfl, Option.ext fun lease => ?_⟩
    rw [lease?_release, lease?_release, same]
  | acquire key' length token =>
    change other.lease? key' = lock.lease? key' at same
    rcases acquire_eq_ok.mp ran with ⟨refused, rfl, rfl⟩ | ⟨ended, fits, rfl, rfl⟩
    · rw [← same] at refused
      exact ⟨other, acquire_eq_ok.mpr (.inl ⟨refused, rfl, rfl⟩), same⟩
    · rw [← same] at ended
      refine ⟨_, acquire_eq_ok.mpr (.inr ⟨ended, fits, rfl, rfl⟩), ?_⟩
      simp [lease?_insert, LockCall.key]

/-- The calls on one key are answered as if there were no others. -/
theorem serveAll_filter (ran : lock.serveAll calls = .ok (served, last))
    (same : other.lease? key = lock.lease? key) :
    ∃ otherLast, other.serveAll (calls.filter fun c => c.call.key = key) =
      .ok (served.filter (fun s => s.call.key = key), otherLast) := by
  induction calls generalizing lock other served with
  | nil =>
    cases ran
    exact ⟨other, rfl⟩
  | cons c rest ih =>
    obtain ⟨answer, next, more, first, others, rfl⟩ := serveAll_cons.mp ran
    by_cases about : c.call.key = key
    · subst about
      obtain ⟨otherNext, again, alike⟩ := serve_congr first same
      obtain ⟨otherLast, ranRest⟩ := ih others alike
      refine ⟨otherLast, ?_⟩
      rw [List.filter_cons_of_pos (by simp), List.filter_cons_of_pos (by simp)]
      exact serveAll_cons.mpr ⟨answer, otherNext, _, again, ranRest, rfl⟩
    · obtain ⟨otherLast, ranRest⟩ :=
        ih others (same.trans (lease?_serve_of_ne first about).symm)
      refine ⟨otherLast, ?_⟩
      rwa [List.filter_cons_of_neg (by simpa using about),
        List.filter_cons_of_neg (by simpa using about)]

end Keys

/-- What clients can rely on once their calls were served. -/
structure Reliable (calls : List ClientCall) (past : List Served) (lock : CaseLock) : Prop where
  /-- Every call was served, in turn. -/
  all : past.map Served.toClientCall = calls
  /-- An acquisition got its token exactly if every lease granted on its key
  before had been handed back or had expired by then. -/
  answered : ∀ before s since key length token, past = before ++ s :: since →
    s.call = .acquire key length token →
      (s.answer = some ⟨key, token⟩ ↔ Free before key s.now) ∧
        (s.answer = none ↔ ¬ Free before key s.now)
  /-- From the last call on, at most one lease on a key stands. -/
  exclusive : ∀ now, (∀ c ∈ calls, c.now ≤ now) → ∀ g since g' since', Granted past g since →
    Granted past g' since' → g.token.key = g'.token.key → g.Stands since now →
      g'.Stands since' now → g = g' ∧ since = since'
  /-- The lock has the lease that was granted last on a key, unless it was handed back. -/
  holds : ∀ key lease, lock.lease? key = some lease ↔
    Current past ⟨⟨key, lease.token⟩, lease.expiresAt⟩
  /-- Releasing a token ends no lease with another token. -/
  othersKept : ∀ token key lease, (⟨key, lease.token⟩ : LockToken) ≠ token →
    ((lock.release token).lease? key = some lease ↔ lock.lease? key = some lease)
  /-- Releasing a token that was handed back, replaced or never granted ends no lease. -/
  endedKept : ∀ token, (∀ g since, Granted past g since → g.token = token →
    g.HandedBack since ∨ g.Replaced since) →
      ∀ key, (lock.release token).lease? key = lock.lease? key
  /-- The calls on one key are answered as if there were no others. -/
  keysApart : ∀ key, ∃ alone, empty.serveAll (calls.filter fun c => c.call.key = key) =
    .ok (past.filter (fun s => s.call.key = key), alone)

/-- Whatever clients call, as long as the clock does not go back and can show
when each lease ends, all calls are answered and clients can rely on the answers. -/
theorem calls_are_served_reliably {calls : List ClientCall}
    (ordered : calls.Pairwise fun c d => c.now ≤ d.now) (inTime : ∀ c ∈ calls, c.EndsInTime) :
    ∃ past lock, empty.serveAll calls = .ok (past, lock) ∧ Reliable calls past lock := by
  obtain ⟨past, lock, final, ran, all, recorded, bound⟩ :=
    Recorded.empty.serveAll ordered (fun c _ => Nat.zero_le c.now) inTime
  refine ⟨past, lock, ran, all, ?_, ?_, recorded.holds, ?_, ?_, fun key => serveAll_filter ran rfl⟩
  · intro before s since key length token split called
    have answers := recorded.answered before s since split
    rw [Served.Answers, called] at answers
    rcases answers with ⟨free, got⟩ | ⟨taken, got⟩
    · simp [free, got]
    · simp [taken, got]
  · intro now after g since g' since'
    exact (recorded.later (bound now (Nat.zero_le now) after)).one_stands
  · intro token key lease different
    rw [lease?_release, and_iff_left different]
  · exact fun token ended key => recorded.release_ended ended

/-- A lease runs out and is taken over; the late release of the first token ends
nothing, so the key stays taken, and another key does not matter. -/
theorem late_release_is_harmless :
    let calls : List ClientCall := [⟨0, .acquire "X123456" 10 1⟩, ⟨5, .acquire "Y654321" 60000 2⟩,
      ⟨30, .acquire "X123456" 60000 3⟩, ⟨30, .release ⟨"X123456", 1⟩⟩,
      ⟨31, .acquire "X123456" 60000 4⟩]
    (empty.serveAll calls).map (fun served => served.1.map (·.answer)) =
      .ok [some ⟨"X123456", 1⟩, some ⟨"Y654321", 2⟩, some ⟨"X123456", 3⟩, none, none] ∧
    ∃ past lock, empty.serveAll calls = .ok (past, lock) ∧ Reliable calls past lock := by
  intro calls
  have ordered : calls.Pairwise fun c d => c.now ≤ d.now := by decide
  have inTime : ∀ c ∈ calls, c.EndsInTime := by simp [calls, ClientCall.EndsInTime, clockEnd]
  exact ⟨rfl, calls_are_served_reliably ordered inTime⟩

end CaseLock
end UnpaidWork
