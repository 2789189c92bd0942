import UnpaidWork.CaseLock
import UnpaidWork.Request

/-!
A run of the service as a procedure: what it asks of its surroundings, one thing
after the other, and how it goes on for each answer. The surroundings are the
case system, its clock, the lock and the receiver of reports. A procedure says
nothing about how they answer, so what holds of it holds for all of them; run
alone it is a calculation on their state, and several runs may be interleaved.
-/
namespace UnpaidWork

/-- What a run does next. Failing answers are texts. -/
inductive Procedure (α : Type) : Type where
  | finish (result : α)
  /-- The run breaks off; nothing after it is done. -/
  | breakOff (cause : Overflow)
  | tell (event : Event) (next : Procedure α)
  | askToday (next : Date → Procedure α)
  | fetch (crn : String) (requirementId : Int64)
      (next : Except String RequirementDetails → Procedure α)
  | record (report : Report) (next : Procedure α)
  | create (request : CreationRequest) (next : Except String Unit → Procedure α)
  | acquire (key : String) (length : Nat) (next : Except String (Option LockToken) → Procedure α)
  | release (token : LockToken) (next : Except String Unit → Procedure α)

namespace Procedure

/-- Goes on with the result of a procedure, unless it breaks off. -/
def andThen {α β : Type} (f : α → Procedure β) : Procedure α → Procedure β
  | .finish result => f result
  | .breakOff cause => .breakOff cause
  | .tell event next => .tell event (andThen f next)
  | .askToday next => .askToday fun answer => andThen f (next answer)
  | .fetch crn requirementId next => .fetch crn requirementId fun answer => andThen f (next answer)
  | .record report next => .record report (andThen f next)
  | .create request next => .create request fun answer => andThen f (next answer)
  | .acquire key length next => .acquire key length fun answer => andThen f (next answer)
  | .release token next => .release token fun answer => andThen f (next answer)

instance : Monad Procedure where
  pure := .finish
  bind procedure f := andThen f procedure

/-- Tells several events. -/
def tellAll : List Event → Procedure Unit
  | [] => .finish ()
  | event :: rest => .tell event (tellAll rest)

/-- A calculation as part of a procedure: it tells its events, then ends or breaks off. -/
def calculate {α : Type} (x : Traced α) : Procedure α :=
  (tellAll x.events).andThen fun _ =>
    match x.result with
    | .ok value => .finish value
    | .error cause => .breakOff cause

end Procedure

/-- Surroundings with a state: how they answer, and how that changes them. -/
structure Surroundings (σ : Type) where
  today : σ → Date
  fetch : σ → String → Int64 → Except String RequirementDetails
  create : σ → CreationRequest → Except String σ
  acquire : σ → String → Nat → Traced (Except String (Option LockToken) × σ)
  release : σ → LockToken → Except String Unit × σ

/-- Something that a run asked of its surroundings. -/
inductive Call where
  | fetch (crn : String) (requirementId : Int64)
  | record (report : Report)
  | create (request : CreationRequest) (succeeded : Bool)
  | acquire (key : String)
  | release (token : LockToken)

/-- A finished run: the state it leaves, its calls and events in order, and its result. -/
structure Run (σ α : Type) where
  state : σ
  calls : List Call
  events : List Event
  result : Except Overflow α

namespace Run

/-- The run with an event before its others. -/
def afterTelling {σ α : Type} (events : List Event) (run : Run σ α) : Run σ α :=
  { run with events := events ++ run.events }

/-- The run with a call before its others. -/
def afterCall {σ α : Type} (call : Call) (run : Run σ α) : Run σ α :=
  { run with calls := call :: run.calls }

end Run

/-- Runs a procedure alone in its surroundings. A recorded report is told to the log. -/
def Procedure.runIn {σ α : Type} (around : Surroundings σ) : Procedure α → σ → Run σ α
  | .finish result, state => ⟨state, [], [], .ok result⟩
  | .breakOff cause, state => ⟨state, [], [], .error cause⟩
  | .tell event next, state => (runIn around next state).afterTelling [event]
  | .askToday next, state => runIn around (next (around.today state)) state
  | .fetch crn requirementId next, state =>
    (runIn around (next (around.fetch state crn requirementId)) state).afterCall
      (.fetch crn requirementId)
  | .record report next, state =>
    ((runIn around next state).afterTelling [.reported report]).afterCall (.record report)
  | .create request next, state =>
    match around.create state request with
    | .ok changed => (runIn around (next (.ok ())) changed).afterCall (.create request true)
    | .error text => (runIn around (next (.error text)) state).afterCall (.create request false)
  | .acquire key length next, state =>
    let asked := around.acquire state key length
    match asked.result with
    | .ok (answer, changed) =>
      ((runIn around (next answer) changed).afterTelling asked.events).afterCall (.acquire key)
    | .error cause => ⟨state, [.acquire key], asked.events, .error cause⟩
  | .release token next, state =>
    let (answer, changed) := around.release state token
    (runIn around (next answer) changed).afterCall (.release token)

end UnpaidWork
