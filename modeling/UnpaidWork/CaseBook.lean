import UnpaidWork.Procedure

/-!
Surroundings kept in memory: one book of appointments that answers for every
case, a lock with its clock, and failures that can be switched on. Created
appointments are entered into the book if it is told to.
-/
namespace UnpaidWork

/-- The failures that are switched on. -/
structure Failures where
  /-- Fetching fails with this text. -/
  fetch : Option String
  /-- Creating appointments on these projects fails. -/
  projects : List String
  acquire : Bool
  release : Bool

/-- No failures. -/
def Failures.none : Failures := ⟨.none, [], false, false⟩

/-- The state of surroundings kept in memory. -/
structure CaseBook where
  today : Date
  details : RequirementDetails
  entersCreations : Bool
  failures : Failures
  lock : CaseLock
  /-- The clock of the lock, in milliseconds. -/
  clock : Nat
  /-- The token of the next lease. -/
  nextToken : Nat

namespace CaseBook

/-- A new book. -/
def new (today : Date) (details : RequirementDetails) (entersCreations : Bool) : CaseBook :=
  ⟨today, details, entersCreations, .none, .empty, 0, 0⟩

/-- The largest id of an appointment, and zero when there is none. -/
def largestId : List ExistingAppointment → Int64
  | [] => 0
  | first :: rest => rest.foldl (fun largest a => if largest < a.id then a.id else largest) first.id

/-- Enters an appointment under the id after the largest. -/
def enter (appointments : List ExistingAppointment) (r : RequiredAppointment) :
    List ExistingAppointment :=
  appointments ++ [{
    id := largestId appointments + 1
    projectCode := r.projectCode
    date := r.date
    startTime := r.startTime
    endTime := r.endTime
    hasOutcome := false
    credit := none
    allocationId := some r.allocationId }]

/-- The book with its appointments changed. -/
def mapAppointments (f : List ExistingAppointment → List ExistingAppointment) (b : CaseBook) :
    CaseBook :=
  { b with details := { b.details with existingAppointments := f b.details.existingAppointments } }

/-- What the book knows about a requirement. -/
def fetch (b : CaseBook) (crn : String) (requirementId : Int64) :
    Except String RequirementDetails :=
  match b.failures.fetch with
  | some text => .error s!"{text}: {crn}/{requirementId.toInt}"
  | none => .ok b.details

/-- Takes an order to create appointments. -/
def create (b : CaseBook) (order : CreationRequest) : Except String CaseBook :=
  if order.projectCode ∈ b.failures.projects then .error s!"rejected {order.projectCode}"
  else if b.entersCreations then
    .ok (b.mapAppointments fun appointments => order.appointments.foldl enter appointments)
  else .ok b

/-- Tries to lease a key from now on. -/
def tryAcquire (b : CaseBook) (key : String) (length : Nat) :
    Traced (Option LockToken × CaseBook) := do
  let (token, lock) ← b.lock.acquire b.clock length key b.nextToken
  return (token, { b with lock := lock, nextToken := b.nextToken + 1 })

/-- Releases a lease. -/
def release (b : CaseBook) (token : LockToken) : CaseBook :=
  { b with lock := b.lock.release token }

/-- Records an outcome for the first appointment with an id, if there is one. -/
def resolve? (b : CaseBook) (id : Int64) (credit : Option Duration) : Option CaseBook :=
  let appointments := b.details.existingAppointments
  match appointments.findIdx? fun a => a.id = id with
  | some index =>
    some (b.mapAppointments fun appointments => appointments.modify index (·.withOutcome credit))
  | none => none

/-- The book as the surroundings of runs. -/
def surroundings : Surroundings CaseBook where
  today := today
  fetch := fetch
  create := create
  acquire b key length :=
    if b.failures.acquire then pure (.error "acquire refused", b)
    else do
      let (token, b) ← b.tryAcquire key length
      return (.ok token, b)
  release b token :=
    if b.failures.release then (.error "release refused", b) else (.ok (), b.release token)

end CaseBook
end UnpaidWork
