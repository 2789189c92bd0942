import UnpaidWork.Proofs.Formats
import UnpaidWork.Wire.Plan

/-!
The times of day and the durations that a value states, and the value with others
in their places. These are the parts that may come back changed from the wire; all
else is read as it was written. Each type tells once where its times and durations
stand, and lists and records put together what their parts tell.
-/
namespace UnpaidWork

/-- Which times of day and durations the values of a type state, and how to put
others in their places. -/
structure Contents (α : Type) where
  times : α → List TimeOfDay
  durations : α → List Duration
  change : (TimeOfDay → TimeOfDay) → (Duration → Duration) → α → α
  change_id : ∀ value, change id id value = value
  /-- What a change does to times and durations that are not there makes no difference. -/
  change_congr : ∀ {time time' : TimeOfDay → TimeOfDay} {length length' : Duration → Duration}
    {value : α}, (∀ t ∈ times value, time t = time' t) →
      (∀ d ∈ durations value, length d = length' d) →
        change time length value = change time' length' value

namespace Contents
variable {α : Type} (contents : Contents α) {value : α}

/-- No times and no durations. -/
def empty : Contents α where
  times _ := []
  durations _ := []
  change _ _ := id
  change_id _ := rfl
  change_congr _ _ := rfl

/-- What the items of a list state. -/
def list : Contents (List α) where
  times items := items.flatMap contents.times
  durations items := items.flatMap contents.durations
  change time length := List.map (contents.change time length)
  change_id items :=
    (List.map_congr_left fun value _ => contents.change_id value).trans (List.map_id items)
  change_congr times durations := List.map_congr_left fun value listed => contents.change_congr
    (fun t states => times t (List.mem_flatMap.mpr ⟨value, listed, states⟩))
    fun d states => durations d (List.mem_flatMap.mpr ⟨value, listed, states⟩)

/-- The value with its times settled and its durations cut to whole minutes. -/
def settle : α → α := contents.change TimeOfDay.settled Duration.cut

variable {contents}

/-- In a list whose items state no durations only the times matter. -/
theorem list_change_congr (none : ∀ value, contents.durations value = []) {items : List α}
    {time time' : TimeOfDay → TimeOfDay} (length length' : Duration → Duration)
    (times : ∀ t ∈ contents.list.times items, time t = time' t) :
    contents.list.change time length items = contents.list.change time' length' items := by
  refine contents.list.change_congr times fun d states => ?_
  obtain ⟨value, -, own⟩ := List.mem_flatMap.mp states
  rw [none value] at own
  cases own

/-- Where all leap seconds end a minute, only the durations are cut. -/
theorem settle_eq_cut (ends : ∀ t ∈ contents.times value, t.LeapEndsMinute) :
    contents.settle value = contents.change id Duration.cut value :=
  contents.change_congr (fun t states => TimeOfDay.settled_eq_self (ends t states)) fun _ _ => rfl

/-- Where besides all durations are whole, nothing is changed. -/
theorem settle_eq_self (ends : ∀ t ∈ contents.times value, t.LeapEndsMinute)
    (whole : ∀ d ∈ contents.durations value, d.IsWhole) : contents.settle value = value := by
  rw [settle_eq_cut ends, contents.change_congr (fun _ _ => rfl) fun d states =>
    Duration.cut_eq_self (whole d states)]
  exact contents.change_id value

end Contents

/-! What the values of each type state -/

def TimeOfDay.contents : Contents TimeOfDay where
  times t := [t]
  durations _ := []
  change time _ := time
  change_id _ := rfl
  change_congr times _ := times _ List.mem_cons_self

def Duration.contents : Contents Duration where
  times _ := []
  durations d := [d]
  change _ length := length
  change_id _ := rfl
  change_congr _ durations := durations _ List.mem_cons_self

def Allocation.contents : Contents Allocation where
  times a := [a.startTime, a.endTime]
  durations _ := []
  change time _ a := { a with startTime := time a.startTime, endTime := time a.endTime }
  change_id _ := rfl
  change_congr times _ := by
    obtain ⟨start, others⟩ := List.forall_mem_cons.mp times
    rw [start, List.forall_mem_singleton.mp others]

namespace ExistingAppointment

def stated (a : ExistingAppointment) : List Duration := a.credit.toList

def contents : Contents ExistingAppointment where
  times a := [a.startTime, a.endTime]
  durations := stated
  change time length a := { a with
    startTime := time a.startTime
    endTime := time a.endTime
    credit := a.credit.map length }
  change_id a := by simp only [Option.map_id, id_eq]
  change_congr times durations := by
    obtain ⟨start, others⟩ := List.forall_mem_cons.mp times
    rw [start, List.forall_mem_singleton.mp others,
      Option.map_congr fun d credited => durations d (Option.mem_toList.mpr credited)]

end ExistingAppointment

def RequiredAppointment.contents : Contents RequiredAppointment where
  times r := [r.startTime, r.endTime]
  durations _ := []
  change time _ r := { r with startTime := time r.startTime, endTime := time r.endTime }
  change_id _ := rfl
  change_congr times _ := by
    obtain ⟨start, others⟩ := List.forall_mem_cons.mp times
    rw [start, List.forall_mem_singleton.mp others]

namespace Request

def stated (r : Request) : List Duration :=
  r.requirement :: r.existingAppointments.flatMap ExistingAppointment.stated

def contents : Contents Request where
  times r := Allocation.contents.list.times r.allocations ++
    ExistingAppointment.contents.list.times r.existingAppointments
  durations := stated
  change time length r := { r with
    requirement := length r.requirement
    allocations := Allocation.contents.list.change time length r.allocations
    existingAppointments :=
      ExistingAppointment.contents.list.change time length r.existingAppointments }
  change_id r := by simp only [Contents.change_id, id]
  change_congr times durations := by
    obtain ⟨slots, bookings⟩ := List.forall_mem_append.mp times
    obtain ⟨requirement, credits⟩ := List.forall_mem_cons.mp durations
    rw [requirement, Contents.list_change_congr (fun _ => rfl) _ _ slots,
      Contents.change_congr _ bookings credits]

end Request

def RequirementDetails.contents : Contents RequirementDetails where
  times r := Allocation.contents.list.times r.allocations ++
    ExistingAppointment.contents.list.times r.existingAppointments
  durations r :=
    r.requirement :: ExistingAppointment.contents.list.durations r.existingAppointments
  change time length r := { r with
    requirement := length r.requirement
    allocations := Allocation.contents.list.change time length r.allocations
    existingAppointments :=
      ExistingAppointment.contents.list.change time length r.existingAppointments }
  change_id r := by simp only [Contents.change_id, id]
  change_congr times durations := by
    obtain ⟨slots, bookings⟩ := List.forall_mem_append.mp times
    obtain ⟨requirement, credits⟩ := List.forall_mem_cons.mp durations
    rw [requirement, Contents.list_change_congr (fun _ => rfl) _ _ slots,
      Contents.change_congr _ bookings credits]

def CreationRequest.contents : Contents CreationRequest where
  times r := RequiredAppointment.contents.list.times r.appointments
  durations _ := []
  change time length r :=
    { r with appointments := RequiredAppointment.contents.list.change time length r.appointments }
  change_id r := by simp only [Contents.change_id]
  change_congr times _ := by rw [Contents.list_change_congr (fun _ => rfl) _ _ times]

def Schedule.contents : Contents Schedule where
  times s := RequiredAppointment.contents.list.times s.requiredAppointments ++
    ExistingAppointment.contents.list.times s.forcedRetentions
  durations s :=
    s.shortfall :: ExistingAppointment.contents.list.durations s.forcedRetentions
  change time length s :=
    { requiredAppointments :=
        RequiredAppointment.contents.list.change time length s.requiredAppointments
      forcedRetentions := ExistingAppointment.contents.list.change time length s.forcedRetentions
      shortfall := length s.shortfall }
  change_id s := by simp only [Contents.change_id, id]
  change_congr times durations := by
    obtain ⟨slots, bookings⟩ := List.forall_mem_append.mp times
    obtain ⟨shortfall, credits⟩ := List.forall_mem_cons.mp durations
    rw [shortfall, Contents.list_change_congr (fun _ => rfl) _ _ slots,
      Contents.change_congr _ bookings credits]

namespace Action

def times : Action → List TimeOfDay
  | .create r => RequiredAppointment.contents.times r
  | .retain a _ => ExistingAppointment.contents.times a

def stated : Action → List Duration
  | .create _ => []
  | .retain a _ => a.stated

def change (time : TimeOfDay → TimeOfDay) (length : Duration → Duration) : Action → Action
  | .create r => .create (RequiredAppointment.contents.change time length r)
  | .retain a reason => .retain (ExistingAppointment.contents.change time length a) reason

def contents : Contents Action where
  times := times
  durations := stated
  change := change
  change_id action := by cases action <;> simp only [change, Contents.change_id]
  change_congr {_ _ _ _ action} times durations := by
    cases action with
    | create r =>
      exact congrArg create
        (Contents.change_congr _ times fun _ states => absurd states List.not_mem_nil)
    | retain a reason => exact congrArg (retain · reason) (Contents.change_congr _ times durations)

end Action

def Plan.contents : Contents Plan where
  times p := Action.contents.list.times p.actions
  durations p := p.shortfall :: Action.contents.list.durations p.actions
  change time length p :=
    ⟨Action.contents.list.change time length p.actions, length p.shortfall⟩
  change_id p := by simp only [Contents.change_id, id]
  change_congr times durations := by
    obtain ⟨shortfall, credits⟩ := List.forall_mem_cons.mp durations
    rw [shortfall, Contents.change_congr _ times credits]

namespace Outcome

def times : Outcome → List TimeOfDay
  | .existingAppointmentsInsufficient plan => Plan.contents.times plan
  | _ => []

def stated : Outcome → List Duration
  | .existingAppointmentsInsufficient plan => Plan.contents.durations plan
  | _ => []

def change (time : TimeOfDay → TimeOfDay) (length : Duration → Duration) : Outcome → Outcome
  | .existingAppointmentsInsufficient plan =>
    .existingAppointmentsInsufficient (Plan.contents.change time length plan)
  | other => other

def contents : Contents Outcome where
  times := times
  durations := stated
  change := change
  change_id o := by cases o <;> simp only [change, Contents.change_id]
  change_congr {_ _ _ _ o} times durations := by
    cases o with
    | existingAppointmentsInsufficient plan =>
      exact congrArg existingAppointmentsInsufficient (Contents.change_congr _ times durations)
    | _ => rfl

end Outcome
end UnpaidWork
