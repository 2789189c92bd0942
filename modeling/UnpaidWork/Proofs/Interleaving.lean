import Mathlib.Logic.Function.Basic
import UnpaidWork.Proofs.Steps

/-!
Locked runs side by side. Any number of them share one lock, and their steps
come in any order. As long as each releases its lease before it has elapsed, the
leases that the lock holds are those of the runs between their grant and their
release, so no two runs for one case are there at the same time. Whatever a run
does to the outside it does there.
-/
namespace UnpaidWork

/-- A step of one of the runs. -/
structure Move (ι : Type) where
  run : ι
  now : Nat
  deed : Deed

/-- The lock that the runs share, and what is left of each of them. -/
structure Joint (ι : Type) where
  lock : CaseLock
  runs : ι → Procedure (Except ServiceError Outcome)

/-- The deed neither gets a lease nor releases one. -/
def Deed.IsIdle : Deed → Prop
  | .isGranted _ | .releases _ => False
  | .worksAlone | .touches _ | .isRefused _ | .breaksOff _ => True

theorem Deed.IsWork.isIdle {deed : Deed} (work : deed.IsWork) : deed.IsIdle := by
  cases deed with
  | worksAlone | touches => trivial
  | isGranted | isRefused | breaksOff | releases => exact work.elim

/-- The run was granted the lease at `since` and has not released it after that. -/
def Holds {ι : Type} (past : List (Move ι)) (i : ι) (token : LockToken) (since : Nat) : Prop :=
  ∃ before after, past = before ++ ⟨i, since, .isGranted token⟩ :: after ∧
    ∀ m ∈ after, m.run = i → m.deed ≠ .releases token

/-- No lease that some run holds has elapsed. -/
def Lasting {ι : Type} (calls : ι → LockedCall) (past : List (Move ι)) (now : Nat) : Prop :=
  ∀ i token since, Holds past i token since → now < since + (calls i).service.leaseLength

/-- Whatever happens, no lease that some run holds then has elapsed: each run
releases its lease before that, if the history goes on for so long. -/
def InTime {ι : Type} (calls : ι → LockedCall) (past : List (Move ι)) : Prop :=
  ∀ before m after, past = before ++ m :: after → Lasting calls before m.now

/-- The moves that runs have made from the start on, in any order, and what they
have come to. The clock does not go back. -/
inductive Interleaves {ι : Type} [DecidableEq ι] (calls : ι → LockedCall) :
    List (Move ι) → Joint ι → Prop
  | start : Interleaves calls [] ⟨.empty, fun i => (calls i).procedure⟩
  | moves {past : List (Move ι)} {joint : Joint ι} {deed : Deed} {lock : CaseLock}
      {rest : Procedure (Except ServiceError Outcome)} (before : Interleaves calls past joint)
      (i : ι) (now : Nat) (onward : ∀ m ∈ past, m.now ≤ now)
      (step : Procedure.Step now joint.lock (joint.runs i) deed lock rest) :
      Interleaves calls (past ++ [⟨i, now, deed⟩]) ⟨lock, Function.update joint.runs i rest⟩

section Holding
variable {ι : Type} {past : List (Move ι)} {m : Move ι} {i : ι} {token : LockToken} {since : Nat}

theorem holds_concat : Holds (past ++ [m]) i token since ↔ m = ⟨i, since, .isGranted token⟩ ∨
    Holds past i token since ∧ ¬ (m.run = i ∧ m.deed = .releases token) := by
  simp only [Holds, CaseLock.split_concat]
  constructor
  · rintro ⟨before, after, ⟨rfl, rfl, granted⟩ | ⟨earlier, rfl, rfl⟩, kept⟩
    · exact .inl granted.symm
    · have kept' : ∀ x ∈ earlier, x.run = i → x.deed ≠ .releases token := fun x member =>
        kept x (List.mem_append_left _ member)
      refine .inr ⟨⟨before, earlier, rfl, kept'⟩, ?_⟩
      rintro ⟨own, released⟩
      exact kept m (List.mem_append_right _ List.mem_cons_self) own released
  · rintro (rfl | ⟨⟨before, earlier, rfl, kept⟩, still⟩)
    · exact ⟨past, [], .inl ⟨rfl, rfl, rfl⟩, fun x member => absurd member List.not_mem_nil⟩
    · refine ⟨before, earlier ++ [m], .inr ⟨earlier, rfl, rfl⟩, fun x member => ?_⟩
      rcases List.mem_append.mp member with before | last
      · exact kept x before
      · cases List.mem_singleton.mp last
        exact fun own released => still ⟨own, released⟩

/-- Moves of others do not matter. -/
theorem holds_concat_of_ne (other : m.run ≠ i) :
    Holds (past ++ [m]) i token since ↔ Holds past i token since := by
  rw [holds_concat]
  constructor
  · rintro (rfl | ⟨held, -⟩)
    · exact absurd rfl other
    · exact held
  · exact fun held => .inr ⟨held, fun ⟨own, _⟩ => other own⟩

/-- Nor do moves that neither get a lease nor release one. -/
theorem holds_concat_of_idle (idle : m.deed.IsIdle) :
    Holds (past ++ [m]) i token since ↔ Holds past i token since := by
  rw [holds_concat]
  constructor
  · rintro (rfl | ⟨held, -⟩)
    · exact idle.elim
    · exact held
  · refine fun held => .inr ⟨held, fun ⟨_, released⟩ => ?_⟩
    rw [released] at idle
    exact idle

theorem holds_grant {got : LockToken} {now : Nat} {j : ι} :
    Holds (past ++ [⟨j, now, .isGranted got⟩]) i token since ↔
      (i = j ∧ since = now ∧ token = got) ∨ Holds past i token since := by
  rw [holds_concat]
  constructor
  · rintro (⟨⟨⟩⟩ | ⟨held, -⟩)
    · exact .inl ⟨rfl, rfl, rfl⟩
    · exact .inr held
  · rintro (⟨rfl, rfl, rfl⟩ | held)
    · exact .inl rfl
    · exact .inr ⟨held, fun ⟨_, released⟩ => nomatch released⟩

theorem Holds.entered {now : Nat} : Holds (past ++ [⟨i, now, .isGranted token⟩]) i token now :=
  holds_concat.mpr (.inl rfl)

theorem Holds.mem (held : Holds past i token since) : ⟨i, since, .isGranted token⟩ ∈ past := by
  obtain ⟨before, after, rfl, -⟩ := held
  simp

end Holding

/-! The leases of the lock -/

/-- The lock holds the leases of the runs that hold one, each for its own case
and no two for the same. -/
structure Leased {ι : Type} (calls : ι → LockedCall) (past : List (Move ι)) (lock : CaseLock) :
    Prop where
  leases : ∀ key lease, lock.lease? key = some lease ↔ ∃ i since,
    Holds past i ⟨key, lease.token⟩ since ∧
      lease.expiresAt = since + (calls i).service.leaseLength
  own : ∀ i token since, Holds past i token since → token.key = (calls i).crn
  alone : ∀ i token since j token' since', Holds past i token since →
    Holds past j token' since' → (calls i).crn = (calls j).crn →
      i = j ∧ token = token' ∧ since = since'

namespace Leased
variable {ι : Type} {calls : ι → LockedCall} {past : List (Move ι)} {lock after : CaseLock}
variable {m : Move ι} {i : ι} {token : LockToken} {now since fresh : Nat}

theorem congr {past' : List (Move ι)} (leased : Leased calls past lock)
    (same : ∀ i token since, Holds past' i token since ↔ Holds past i token since) :
    Leased calls past' lock := by
  obtain ⟨leases, own, alone⟩ := leased
  simp only [← same] at leases own alone
  exact ⟨leases, own, alone⟩

/-- A lease is granted only when no run holds the one of its case. -/
theorem unheld (leased : Leased calls past lock) (lasting : Lasting calls past now)
    (free : ∀ held, lock.lease? (calls i).crn = some held → held.expiresAt ≤ now) {j : ι}
    (held : Holds past j token since) : (calls j).crn ≠ (calls i).crn := by
  intro same
  have key : token.key = (calls i).crn := (leased.own j token since held).trans same
  have lease : lock.lease? (calls i).crn =
      some ⟨token.token, since + (calls j).service.leaseLength⟩ :=
    (leased.leases _ _).mpr ⟨j, since, key ▸ held, rfl⟩
  have ended : since + (calls j).service.leaseLength ≤ now := free _ lease
  exact absurd (lasting j token since held) (Nat.not_lt.mpr ended)

theorem grant (leased : Leased calls past lock)
    (unheld : ∀ j token since, Holds past j token since → (calls j).crn ≠ (calls i).crn) :
    Leased calls (past ++ [⟨i, now, .isGranted ⟨(calls i).crn, fresh⟩⟩])
      (lock.insert (calls i).crn ⟨fresh, now + (calls i).service.leaseLength⟩) := by
  refine ⟨fun key lease => ?_, fun j token since => ?_, fun j token since k token' since' => ?_⟩
  · rw [CaseLock.lease?_insert]
    simp only [holds_grant]
    by_cases own : key = (calls i).crn
    · rw [if_pos own]
      constructor
      · rintro ⟨⟩
        exact ⟨i, now, .inl ⟨rfl, rfl, by rw [own]⟩, rfl⟩
      · rintro ⟨j, since, ⟨rfl, rfl, same⟩ | held, expires⟩
        · cases lease
          cases same
          exact congrArg some (congrArg _ expires.symm)
        · exact absurd ((leased.own j _ since held).symm.trans own) (unheld j _ since held)
    · rw [if_neg own, leased.leases]
      constructor
      · rintro ⟨j, since, held, expires⟩
        exact ⟨j, since, .inr held, expires⟩
      · rintro ⟨j, since, ⟨-, -, same⟩ | held, expires⟩
        · exact absurd (congrArg LockToken.key same) own
        · exact ⟨j, since, held, expires⟩
  · rw [holds_grant]
    rintro (⟨rfl, rfl, rfl⟩ | held)
    · rfl
    · exact leased.own j token since held
  · rw [holds_grant, holds_grant]
    rintro (⟨rfl, rfl, rfl⟩ | held) (⟨rfl, rfl, rfl⟩ | held') same
    · exact ⟨rfl, rfl, rfl⟩
    · exact absurd same.symm (unheld k token' since' held')
    · exact absurd same (unheld j token since held)
    · exact leased.alone j token since k token' since' held held' same

theorem holds_release (leased : Leased calls past lock) (held : Holds past i token since) {j : ι}
    {token' : LockToken} {since' : Nat} :
    Holds (past ++ [⟨i, now, .releases token⟩]) j token' since' ↔
      Holds past j token' since' ∧ j ≠ i := by
  rw [holds_concat]
  constructor
  · rintro (⟨⟨⟩⟩ | ⟨held', still⟩)
    refine ⟨held', ?_⟩
    rintro rfl
    obtain ⟨-, rfl, -⟩ := leased.alone _ _ _ _ _ _ held held' rfl
    exact still ⟨rfl, rfl⟩
  · rintro ⟨held', other⟩
    exact .inr ⟨held', fun ⟨own, _⟩ => other own.symm⟩

theorem release (leased : Leased calls past lock) (held : Holds past i token since) :
    Leased calls (past ++ [⟨i, now, .releases token⟩]) (lock.release token) := by
  refine ⟨fun key lease => ?_, fun j token' since' => ?_, ?_⟩
  · rw [CaseLock.lease?_release, leased.leases]
    simp only [leased.holds_release held]
    constructor
    · rintro ⟨⟨j, since', held', expires⟩, different⟩
      refine ⟨j, since', ⟨held', ?_⟩, expires⟩
      rintro rfl
      exact different (leased.alone _ _ _ _ _ _ held' held rfl).2.1
    · rintro ⟨j, since', ⟨held', other⟩, expires⟩
      refine ⟨⟨j, since', held', expires⟩, ?_⟩
      rintro rfl
      have same := (leased.own _ _ _ held').symm.trans (leased.own _ _ _ held)
      exact other (leased.alone _ _ _ _ _ _ held' held same).1
  · rw [leased.holds_release held]
    exact fun ⟨held', _⟩ => leased.own j token' since' held'
  · intro j token' since' k token'' since''
    rw [leased.holds_release held, leased.holds_release held]
    exact fun ⟨first, _⟩ ⟨second, _⟩ => leased.alone _ _ _ _ _ _ first second

end Leased

/-! How far each run has come -/

/-- The run was never refused a lease. -/
def Accepted {ι : Type} (past : List (Move ι)) (i : ι) : Prop :=
  ∀ m ∈ past, m.run = i → ∀ key, m.deed ≠ .isRefused key

/-- What is left of a run, by what it has done: it waits for its first step, it
holds a lease, it was refused one, or it is over. -/
inductive Stage {ι : Type} [DecidableEq ι] (c : LockedCall) (past : List (Move ι)) (i : ι) :
    Procedure (Except ServiceError Outcome) → Prop
  | waits (unseen : ∀ m ∈ past, m.run ≠ i) : Stage c past i c.procedure
  | holds {token : LockToken} {since : Nat} {rest : Procedure (Except ServiceError Outcome)}
      (held : Holds past i token since) (accepted : Accepted past i) (free : rest.LockFree) :
      Stage c past i (c.holding token rest)
  | refused {now : Nat}
      (only : past.filter (fun m => m.run = i) = [⟨i, now, .isRefused c.crn⟩]) :
      Stage c past i (.finish (.error (.lockUnavailable c.crn)))
  | finished {result : Except ServiceError Outcome} (accepted : Accepted past i) :
      Stage c past i (.finish result)
  | brokenOff {cause : Overflow} (accepted : Accepted past i) : Stage c past i (.breakOff cause)

/-- What a run can do next, and what becomes of the lock and of the run. -/
inductive Turn {ι : Type} (calls : ι → LockedCall) (past : List (Move ι)) (lock : CaseLock)
    (i : ι) (now : Nat) : Deed → CaseLock → Procedure (Except ServiceError Outcome) → Prop
  | enters {fresh : Nat} {rest : Procedure (Except ServiceError Outcome)}
      (unseen : ∀ m ∈ past, m.run ≠ i)
      (unheld : ∀ j token since, Holds past j token since → (calls j).crn ≠ (calls i).crn)
      (free : rest.LockFree) :
      Turn calls past lock i now (.isGranted ⟨(calls i).crn, fresh⟩)
        (lock.insert (calls i).crn ⟨fresh, now + (calls i).service.leaseLength⟩)
        ((calls i).holding ⟨(calls i).crn, fresh⟩ rest)
  | isTurnedAway {j : ι} {token : LockToken} {since : Nat} (unseen : ∀ m ∈ past, m.run ≠ i)
      (held : Holds past j token since) (same : (calls j).crn = (calls i).crn) :
      Turn calls past lock i now (.isRefused (calls i).crn) lock
        (.finish (.error (.lockUnavailable (calls i).crn)))
  | breaksOff {cause : Overflow} (unseen : ∀ m ∈ past, m.run ≠ i) :
      Turn calls past lock i now (.breaksOff (calls i).crn) lock (.breakOff cause)
  | works {deed : Deed} {token : LockToken} {since : Nat}
      {rest : Procedure (Except ServiceError Outcome)} (work : deed.IsWork)
      (held : Holds past i token since) (accepted : Accepted past i) (free : rest.LockFree) :
      Turn calls past lock i now deed lock ((calls i).holding token rest)
  | leaves {token : LockToken} {since : Nat} {result : Except ServiceError Outcome}
      (held : Holds past i token since) (accepted : Accepted past i) :
      Turn calls past lock i now (.releases token) (lock.release token) (.finish result)

/-- The lock and all runs are as the moves so far make them. -/
structure Kept {ι : Type} [DecidableEq ι] (calls : ι → LockedCall) (past : List (Move ι))
    (joint : Joint ι) : Prop where
  leased : Leased calls past joint.lock
  stages : ∀ i, Stage (calls i) past i (joint.runs i)

section Runs
variable {ι : Type} {calls : ι → LockedCall} {past before after : List (Move ι)}
variable {joint : Joint ι} {lock : CaseLock} {m : Move ι} {i j : ι} {now : Nat} {deed : Deed}
variable {p rest : Procedure (Except ServiceError Outcome)} {c : LockedCall}

theorem accepted_concat : Accepted (past ++ [m]) i ↔
    Accepted past i ∧ (m.run = i → ∀ key, m.deed ≠ .isRefused key) := by
  constructor
  · intro accepted
    exact ⟨fun x member => accepted x (List.mem_append_left _ member),
      accepted m (List.mem_append_right _ List.mem_cons_self)⟩
  · rintro ⟨before, last⟩ x member
    rcases List.mem_append.mp member with inPast | now
    · exact before x inPast
    · cases List.mem_singleton.mp now
      exact last

theorem accepted_of_unseen (unseen : ∀ m ∈ past, m.run ≠ i) : Accepted past i :=
  fun m member own => absurd own (unseen m member)

theorem InTime.beginning (inTime : InTime calls (past ++ after)) : InTime calls past := by
  rintro before m rest rfl
  exact inTime before m (rest ++ after) (by simp)

namespace Turn
variable {lock' : CaseLock} {call : Call} {key : String} {token : LockToken}

/-- A run that touches anything holds the lease of its case. -/
theorem touches (turn : Turn calls past lock i now deed lock' rest)
    (touched : deed = .touches call) : ∃ token since, Holds past i token since := by
  cases turn with
  | works _ held => exact ⟨_, _, held⟩
  | enters | isTurnedAway | breaksOff | leaves => cases touched

/-- A run is turned away by another one that holds the lease of the same case. -/
theorem refused (turn : Turn calls past lock i now deed lock' rest)
    (turned : deed = .isRefused key) : ∃ j token since, j ≠ i ∧ (calls j).crn = (calls i).crn ∧
      Holds past j token since := by
  cases turn with
  | isTurnedAway unseen held same => exact ⟨_, _, _, unseen _ held.mem, same, held⟩
  | works work =>
    rw [turned] at work
    exact work.elim
  | enters | breaksOff | leaves => cases turned

/-- A run enters only while no run holds the lease of its case. -/
theorem granted (turn : Turn calls past lock i now deed lock' rest)
    (entered : deed = .isGranted token) {given : LockToken} {since : Nat}
    (held : Holds past j given since) : (calls j).crn ≠ (calls i).crn := by
  cases turn with
  | enters _ unheld => exact unheld j given since held
  | works work =>
    rw [entered] at work
    exact work.elim
  | isTurnedAway | breaksOff | leaves => cases entered

end Turn

variable [DecidableEq ι]

/-- A move of one run leaves the others where they are. -/
theorem Stage.concat (stage : Stage c past j p) (other : m.run ≠ j) :
    Stage c (past ++ [m]) j p := by
  have accepts (accepted : Accepted past j) : Accepted (past ++ [m]) j :=
    accepted_concat.mpr ⟨accepted, fun own => absurd own other⟩
  cases stage with
  | waits unseen =>
    apply Stage.waits
    intro x member
    rcases List.mem_append.mp member with inPast | now
    · exact unseen x inPast
    · cases List.mem_singleton.mp now
      exact other
  | holds held accepted free =>
    exact .holds ((holds_concat_of_ne other).mpr held) (accepts accepted) free
  | refused only =>
    have same : (past ++ [m]).filter (fun x => x.run = j) = past.filter fun x => x.run = j := by
      simp [List.filter_append, other]
    exact .refused (same.trans only)
  | finished accepted => exact .finished (accepts accepted)
  | brokenOff accepted => exact .brokenOff (accepts accepted)

/-- Every step that a run can take is one of these turns. -/
theorem Kept.turn (kept : Kept calls past joint) (lasting : Lasting calls past now)
    (step : Procedure.Step now joint.lock (joint.runs i) deed lock rest) :
    Turn calls past joint.lock i now deed lock rest := by
  have stage := kept.stages i
  generalize joint.runs i = p at step stage
  cases stage with
  | waits unseen =>
    rcases LockedCall.step_procedure step with ⟨fresh, answer, rfl, rest, free, rfl⟩ |
      ⟨⟨held, leased, -⟩, rfl, rfl, rfl⟩ | ⟨rfl, rfl, cause, rfl⟩
    · obtain ⟨-, none, -⟩ | ⟨ended, -, -, rfl⟩ := CaseLock.acquire_eq_ok.mp answer
      · cases none
      · exact .enters unseen (fun _ _ _ => kept.leased.unheld lasting ended) free
    · obtain ⟨j, since, holding, -⟩ := (kept.leased.leases _ _).mp leased
      exact .isTurnedAway unseen holding (kept.leased.own j _ since holding).symm
    · exact .breaksOff unseen
  | holds held accepted free =>
    rcases LockedCall.step_holding free step with
      ⟨work, rfl, more, free, rfl⟩ | ⟨rfl, rfl, result, rfl⟩
    · exact .works work held accepted free
    · exact .leaves held accepted
  | refused => cases step
  | finished => cases step
  | brokenOff => cases step

/-- After each turn the lock and the runs are as the moves make them. -/
theorem Turn.kept (turn : Turn calls past joint.lock i now deed lock rest)
    (kept : Kept calls past joint) :
    Kept calls (past ++ [⟨i, now, deed⟩]) ⟨lock, Function.update joint.runs i rest⟩ := by
  have others (own : Stage (calls i) (past ++ [⟨i, now, deed⟩]) i rest) (j : ι) :
      Stage (calls j) (past ++ [⟨i, now, deed⟩]) j (Function.update joint.runs i rest j) := by
    by_cases same : j = i
    · subst same
      rwa [Function.update_self]
    · rw [Function.update_of_ne same]
      exact (kept.stages j).concat (Ne.symm same)
  cases turn with
  | enters unseen unheld free =>
    refine ⟨kept.leased.grant unheld, others (.holds .entered ?_ free)⟩
    exact accepted_concat.mpr ⟨accepted_of_unseen unseen, fun _ _ => nofun⟩
  | isTurnedAway unseen =>
    have nothing : past.filter (fun m => m.run = i) = [] := by simpa using unseen
    let refusal : Move ι := ⟨i, now, .isRefused (calls i).crn⟩
    have only : (past ++ [refusal]).filter (fun m => m.run = i) = [refusal] := by
      simp [List.filter_append, nothing, refusal]
    exact ⟨kept.leased.congr fun _ _ _ => holds_concat_of_idle trivial, others (.refused only)⟩
  | breaksOff unseen =>
    refine ⟨kept.leased.congr fun _ _ _ => holds_concat_of_idle trivial, others (.brokenOff ?_)⟩
    exact accepted_concat.mpr ⟨accepted_of_unseen unseen, fun _ _ => nofun⟩
  | works work held accepted free =>
    refine ⟨kept.leased.congr fun _ _ _ => holds_concat_of_idle work.isIdle,
      others (.holds ((holds_concat_of_idle work.isIdle).mpr held) ?_ free)⟩
    refine accepted_concat.mpr ⟨accepted, fun _ key refused => ?_⟩
    change deed = .isRefused key at refused
    rwa [refused] at work
  | leaves held accepted =>
    refine ⟨kept.leased.release held, others (.finished ?_)⟩
    exact accepted_concat.mpr ⟨accepted, fun _ _ => nofun⟩

/-! The whole history -/

theorem kept_start (calls : ι → LockedCall) :
    Kept calls [] ⟨.empty, fun i => (calls i).procedure⟩ := by
  have nobody (i : ι) (token : LockToken) (since : Nat) : ¬ Holds [] i token since := by
    intro held
    cases held.mem
  refine ⟨⟨fun key lease => ?_, ?_, ?_⟩, fun i => .waits fun m member => nomatch member⟩
  · simp [nobody]
  · exact fun i token since held => absurd held (nobody i token since)
  · exact fun i token since _ _ _ held => absurd held (nobody i token since)

/-- As long as leases are released in time, the lock and the runs are always as
the moves make them. -/
theorem Interleaves.kept (interleaved : Interleaves calls past joint) (inTime : InTime calls past) :
    Kept calls past joint := by
  induction interleaved with
  | start => exact kept_start calls
  | moves before i now onward step ih =>
    have kept := ih inTime.beginning
    exact (kept.turn (inTime _ _ [] rfl) step).kept kept

/-- Every move was a turn of its run. -/
theorem Interleaves.turn_of_split (interleaved : Interleaves calls past joint)
    (inTime : InTime calls past) (split : past = before ++ m :: after) :
    ∃ joint lock rest, Kept calls before joint ∧
      Turn calls before joint.lock m.run m.now m.deed lock rest := by
  induction interleaved generalizing after with
  | start => simp at split
  | @moves past joint deed lock rest earlier i now onward step ih =>
    rcases CaseLock.split_concat.mp split with ⟨rfl, rfl, rfl⟩ | ⟨more, rfl, rfl⟩
    · have kept := earlier.kept inTime.beginning
      exact ⟨joint, lock, rest, kept, kept.turn (inTime _ _ [] rfl) step⟩
    · exact ih inTime.beginning rfl

theorem Interleaves.ordered (interleaved : Interleaves calls past joint) :
    past.Pairwise fun m m' => m.now ≤ m'.now := by
  induction interleaved with
  | start => exact .nil
  | moves before i now onward step ih =>
    refine List.pairwise_append.mpr ⟨ih, List.pairwise_singleton _ _, fun x member y last => ?_⟩
    cases List.mem_singleton.mp last
    exact onward x member

/-- It is enough that every lease that was granted was released before it had elapsed. -/
theorem Interleaves.inTime (interleaved : Interleaves calls past joint)
    (released : ∀ before i since token after,
      past = before ++ ⟨i, since, .isGranted token⟩ :: after → ∃ now,
        ⟨i, now, .releases token⟩ ∈ after ∧ now < since + (calls i).service.leaseLength) :
    InTime calls past := by
  rintro before m after rfl i token since ⟨earlier, meanwhile, rfl, kept⟩
  obtain ⟨now, release, early⟩ := released earlier i since token (meanwhile ++ m :: after) (by simp)
  rcases List.mem_append.mp release with before | later
  · exact absurd rfl (kept _ before rfl)
  · rcases List.mem_cons.mp later with rfl | after
    · exact early
    · have onward := (List.pairwise_append.mp interleaved.ordered).2.1
      exact Nat.lt_of_le_of_lt ((List.pairwise_cons.mp onward).1 _ after) early

/-- A run that holds a lease has released it before another one for its case
touches anything. -/
theorem Kept.released_before {between : List (Move ι)} {token given : LockToken} {since taken : Nat}
    (kept : Kept calls (before ++ ⟨i, since, .isGranted token⟩ :: between) joint)
    (held : Holds (before ++ ⟨i, since, .isGranted token⟩ :: between) j given taken)
    (other : j ≠ i) (same : (calls j).crn = (calls i).crn) :
    ∃ x ∈ between, x.run = i ∧ x.deed = .releases token := by
  by_contra unreleased
  have still : Holds (before ++ ⟨i, since, .isGranted token⟩ :: between) i token since :=
    ⟨before, between, rfl, fun x member own released => unreleased ⟨x, member, own, released⟩⟩
  exact other (kept.leased.alone _ _ _ _ _ _ held still same).1

/-- A run that was refused did and does nothing else. -/
theorem Kept.refused {key : String} (kept : Kept calls past joint) (member : m ∈ past)
    (refused : m.deed = .isRefused key) : past.filter (fun x => x.run = m.run) = [m] ∧
      joint.runs m.run = .finish (.error (.lockUnavailable (calls m.run).crn)) := by
  have contradictory (accepted : Accepted past m.run) : False := accepted m member rfl key refused
  have stage := kept.stages m.run
  generalize joint.runs m.run = p at stage ⊢
  cases stage with
  | waits unseen => exact absurd rfl (unseen m member)
  | holds _ accepted => exact (contradictory accepted).elim
  | finished accepted => exact (contradictory accepted).elim
  | brokenOff accepted => exact (contradictory accepted).elim
  | refused only =>
    have own : m ∈ past.filter fun x => x.run = m.run := by simp [member]
    rw [only] at own ⊢
    rw [← List.mem_singleton.mp own]
    exact ⟨rfl, rfl⟩

/-- What locked runs can rely on: no other one for the same case comes in between. -/
structure Isolated (calls : ι → LockedCall) (past : List (Move ι)) (joint : Joint ι) : Prop where
  /-- A run that was granted its lease has released it before another run for the
  same case touches anything. -/
  undisturbed : ∀ before i since token between m after call,
    past = before ++ ⟨i, since, .isGranted token⟩ :: (between ++ m :: after) →
      m.deed = .touches call → m.run ≠ i → (calls m.run).crn = (calls i).crn →
        ∃ x ∈ between, x.run = i ∧ x.deed = .releases token
  /-- Whatever a run touches it touches with the lease of its case. -/
  leased : ∀ before m after call, past = before ++ m :: after → m.deed = .touches call →
    ∃ token since, Holds before m.run token since ∧ token.key = (calls m.run).crn
  /-- A run that is refused makes no other move, and its error names its case. -/
  refused : ∀ m ∈ past, ∀ key, m.deed = .isRefused key →
    past.filter (fun x => x.run = m.run) = [m] ∧
      joint.runs m.run = .finish (.error (.lockUnavailable (calls m.run).crn))
  /-- A run is refused only while another one for the same case holds its lease, -/
  refusal : ∀ before m after key, past = before ++ m :: after → m.deed = .isRefused key →
    ∃ i token since, i ≠ m.run ∧ (calls i).crn = (calls m.run).crn ∧ Holds before i token since
  /-- and is granted its own only while none does. Runs for other cases do not matter. -/
  grant : ∀ before m after token, past = before ++ m :: after → m.deed = .isGranted token →
    ∀ i given since, Holds before i given since → (calls i).crn ≠ (calls m.run).crn

/-- However the steps of locked runs interleave, as long as each run releases its
lease before it has elapsed, no run disturbs another one for its case. -/
theorem locked_runs_are_isolated (interleaved : Interleaves calls past joint)
    (inTime : InTime calls past) : Isolated calls past joint := by
  refine ⟨?_, ?_, ?_, ?_, ?_⟩
  · intro before i since token between m after call split touched other same
    have split : past = (before ++ ⟨i, since, .isGranted token⟩ :: between) ++ m :: after := by
      simpa using split
    obtain ⟨_, _, _, kept, turn⟩ := interleaved.turn_of_split inTime split
    obtain ⟨given, taken, held⟩ := turn.touches touched
    exact kept.released_before held other same
  · intro before m after call split touched
    obtain ⟨_, _, _, kept, turn⟩ := interleaved.turn_of_split inTime split
    obtain ⟨token, since, held⟩ := turn.touches touched
    exact ⟨token, since, held, kept.leased.own _ _ _ held⟩
  · intro m member key refused
    exact (interleaved.kept inTime).refused member refused
  · intro before m after key split refused
    obtain ⟨_, _, _, _, turn⟩ := interleaved.turn_of_split inTime split
    exact turn.refused refused
  · intro before m after token split granted i given since held
    obtain ⟨_, _, _, _, turn⟩ := interleaved.turn_of_split inTime split
    exact turn.granted granted held

/-- A run whose details cannot be fetched holds its case until it has released it: a second
run for the case is refused meanwhile, one for another case is not, and a third
one for the case goes on after it. -/
theorem third_run_follows_the_first :
    let call (crn : String) : LockedCall := ⟨⟨{}⟩, ⟨0, by decide⟩, crn, 1, ⟨.manual, ""⟩⟩
    let calls : Fin 4 → LockedCall
      | 2 => call "Y"
      | _ => call "X"
    let past : List (Move (Fin 4)) := [⟨0, 0, .isGranted ⟨"X", 1⟩⟩, ⟨1, 5, .isRefused "X"⟩,
      ⟨2, 5, .isGranted ⟨"Y", 2⟩⟩, ⟨0, 6, .worksAlone⟩, ⟨0, 7, .touches (.fetch "X" 1)⟩,
      ⟨0, 8, .releases ⟨"X", 1⟩⟩, ⟨3, 9, .isGranted ⟨"X", 3⟩⟩, ⟨3, 9, .worksAlone⟩,
      ⟨3, 10, .touches (.fetch "X" 1)⟩]
    ∃ joint, Interleaves calls past joint ∧ InTime calls past ∧ Isolated calls past joint := by
  intro call calls past
  have begins : Interleaves calls [] ⟨.empty, fun i => (calls i).procedure⟩ := .start
  have entered := begins.moves 0 0 nofun
    (.granted 1 _ (CaseLock.acquire_eq_ok.mpr (.inr ⟨nofun, by decide, rfl, rfl⟩)))
  have refused := entered.moves 1 5 (by simp)
    (.refused 0 _ (CaseLock.acquire_eq_ok.mpr (.inl ⟨⟨_, rfl, by decide⟩, rfl, rfl⟩)))
  have beside := refused.moves 2 5 (by simp)
    (.granted 2 _ (CaseLock.acquire_eq_ok.mpr (.inr ⟨nofun, by decide, rfl, rfl⟩)))
  have fetched := (beside.moves 0 6 (by simp) (.tell _ _)).moves 0 7 (by simp)
    (.fetch _ _ _ (.error "down"))
  have left := fetched.moves 0 8 (by simp) (.release _ _)
  have followed := left.moves 3 9 (by simp)
    (.granted 3 _ (CaseLock.acquire_eq_ok.mpr (.inr ⟨nofun, by decide, rfl, rfl⟩)))
  have interleaved := (followed.moves 3 9 (by simp) (.tell _ _)).moves 3 10 (by simp)
    (.fetch _ _ _ (.error "down"))
  have inTime : InTime calls past := by
    intro before m after split i token since held
    have member : m ∈ past := by rw [split]; simp
    have early : ∀ m ∈ past, m.now ≤ 10 := by simp [past]
    have lasting : ∀ i, (calls i).service.leaseLength = 60000 := by decide
    rw [lasting i]
    have := early m member
    omega
  exact ⟨_, interleaved, inTime, locked_runs_are_isolated interleaved inTime⟩

end Runs
end UnpaidWork
