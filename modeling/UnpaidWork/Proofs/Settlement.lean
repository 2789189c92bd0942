import UnpaidWork.Proofs.Lengths
import UnpaidWork.Planning
import Mathlib.Data.List.Nodup

/-!
How required appointments are settled. Each is either met by an existing
appointment, which then meets no other, or created, so the two groups together
take the time that was required. A plan retains the appointments that met one,
then the forced ones, and last those still to come that neither is.
-/
namespace UnpaidWork

/-- The appointment, when it comes from an allocation, as one that could be required. -/
def ExistingAppointment.slot? (a : ExistingAppointment) : Option RequiredAppointment :=
  a.allocationId.map fun allocation => ⟨a.date, a.startTime, a.endTime, a.projectCode, allocation⟩

namespace RequiredAppointment
variable {r : RequiredAppointment} {a : ExistingAppointment}

theorem isMetBy_iff : r.isMetBy a ↔ a.slot? = some r := by
  cases r
  simp only [isMetBy, ExistingAppointment.slot?, Bool.and_eq_true, decide_eq_true_eq,
    Option.map_eq_some_iff, RequiredAppointment.mk.injEq]
  constructor
  · rintro ⟨⟨⟨⟨rfl, rfl⟩, rfl⟩, rfl⟩, same⟩
    exact ⟨_, same, rfl, rfl, rfl, rfl, rfl⟩
  · rintro ⟨allocation, same, rfl, rfl, rfl, rfl, rfl⟩
    exact ⟨⟨⟨⟨rfl, rfl⟩, rfl⟩, rfl⟩, same⟩

theorem of_slot (same : a.slot? = some r) :
    a.date = r.date ∧ a.duration = r.duration ∧ a.allocationId = some r.allocationId := by
  obtain ⟨allocation, source, rfl⟩ := Option.map_eq_some_iff.mp same
  exact ⟨rfl, rfl, source⟩

end RequiredAppointment

/-- How `required` is settled among `existing` appointments, those with ids
`before` apart: which are created, which existing ones meet the others, and
which ids are taken after it. -/
structure Settled (existing : List ExistingAppointment) (before : List Int64)
    (required created : List RequiredAppointment) (met : List ExistingAppointment)
    (after : List Int64) : Prop where
  part : created.Sublist required
  meets : ∀ a ∈ met, a ∈ existing ∧ ∃ r ∈ required, a.slot? = some r
  untaken : ∀ a ∈ met, a.id ∉ before
  distinct : (met.map (·.id)).Nodup
  taken : ∀ id, id ∈ after ↔ id ∈ before ∨ id ∈ met.map (·.id)
  time : timeOf RequiredAppointment.duration created +
    timeOf ExistingAppointment.duration met = timeOf RequiredAppointment.duration required

section Settle
variable {existing : List ExistingAppointment} {taken : List Int64} {r : RequiredAppointment}
variable {rest : List RequiredAppointment}

/-- The first existing appointment that is exactly `r` and not taken yet. -/
def free? (existing : List ExistingAppointment) (taken : List Int64) (r : RequiredAppointment) :
    Option ExistingAppointment :=
  existing.find? fun a => r.isMetBy a && !taken.contains a.id

theorem free?_eq_some {a : ExistingAppointment} (found : free? existing taken r = some a) :
    a ∈ existing ∧ a.slot? = some r ∧ a.id ∉ taken := by
  have accepted := List.find?_some found
  simp only [Bool.and_eq_true, Bool.not_eq_true', List.contains_eq_mem,
    decide_eq_false_iff_not] at accepted
  exact ⟨List.mem_of_find?_eq_some found, RequiredAppointment.isMetBy_iff.mp accepted.1, accepted.2⟩

/-- Taken ids matter only where they belong to appointments that could meet the required one. -/
theorem free?_congr {taken' : List Int64}
    (agree : ∀ a ∈ existing, a.slot? = some r → (a.id ∈ taken ↔ a.id ∈ taken')) :
    free? existing taken r = free? existing taken' r := by
  unfold free?
  rw [← List.head?_filter, ← List.head?_filter]
  refine congrArg List.head? (List.filter_congr fun a present => ?_)
  cases met : r.isMetBy a
  · rfl
  · simp only [List.contains_eq_mem, agree a present (RequiredAppointment.isMetBy_iff.mp met)]

theorem settle_met {a : ExistingAppointment} (found : free? existing taken r = some a) :
    settle existing taken (r :: rest) =
      (.retain a .required :: (settle existing (a.id :: taken) rest).1,
        (settle existing (a.id :: taken) rest).2) := by
  unfold free? at found
  rw [settle, found]

theorem settle_created (missing : free? existing taken r = none) :
    settle existing taken (r :: rest) =
      (.create r :: (settle existing taken rest).1, (settle existing taken rest).2) := by
  unfold free? at missing
  rw [settle, missing]

/-- What is created of some required appointments. -/
def missing (existing : List ExistingAppointment) (taken : List Int64)
    (required : List RequiredAppointment) : List RequiredAppointment :=
  (settle existing taken required).1.filterMap Action.created?

/-- What is retained because it meets one of some required appointments. -/
def meeting (existing : List ExistingAppointment) (taken : List Int64)
    (required : List RequiredAppointment) : List ExistingAppointment :=
  (settle existing taken required).1.filterMap fun action => action.retained?.map Prod.fst

theorem missing_cons_of_some {a : ExistingAppointment} (found : free? existing taken r = some a) :
    missing existing taken (r :: rest) = missing existing (a.id :: taken) rest := by
  unfold missing
  rw [settle_met found]
  rfl

theorem missing_cons_of_none (found : free? existing taken r = none) :
    missing existing taken (r :: rest) = r :: missing existing taken rest := by
  unfold missing
  rw [settle_created found]
  rfl

theorem meeting_cons_of_some {a : ExistingAppointment} (found : free? existing taken r = some a) :
    meeting existing taken (r :: rest) = a :: meeting existing (a.id :: taken) rest := by
  unfold meeting
  rw [settle_met found]
  rfl

theorem meeting_cons_of_none (found : free? existing taken r = none) :
    meeting existing taken (r :: rest) = meeting existing taken rest := by
  unfold meeting
  rw [settle_created found]
  rfl

theorem missing_of_unmet {required : List RequiredAppointment}
    (unmet : meeting existing taken required = []) :
    missing existing taken required = required := by
  induction required with
  | nil => rfl
  | cons r rest ih =>
    cases found : free? existing taken r with
    | none =>
      rw [meeting_cons_of_none found] at unmet
      rw [missing_cons_of_none found, ih unmet]
    | some a =>
      rw [meeting_cons_of_some found] at unmet
      cases unmet

/-- The required appointments are settled in turn, so a list can be settled in two parts. -/
theorem missing_append (taken : List Int64) (first rest : List RequiredAppointment) :
    missing existing taken (first ++ rest) =
      missing existing taken first ++ missing existing (settle existing taken first).2 rest := by
  induction first generalizing taken with
  | nil => rfl
  | cons r others ih =>
    rw [List.cons_append]
    cases found : free? existing taken r with
    | none =>
      rw [missing_cons_of_none found, missing_cons_of_none found, settle_created found, ih]
      rfl
    | some a => rw [missing_cons_of_some found, missing_cons_of_some found, settle_met found, ih]

/-- Ids of appointments that could meet none of the required ones do not matter. -/
theorem missing_congr {taken' : List Int64} {required : List RequiredAppointment}
    (agree : ∀ a ∈ existing, (∃ r ∈ required, a.slot? = some r) → (a.id ∈ taken ↔ a.id ∈ taken')) :
    missing existing taken required = missing existing taken' required := by
  induction required generalizing taken taken' with
  | nil => rfl
  | cons r rest ih =>
    have same : free? existing taken r = free? existing taken' r :=
      free?_congr fun a present slot => agree a present ⟨r, List.mem_cons_self, slot⟩
    have agreeRest : ∀ a ∈ existing, (∃ q ∈ rest, a.slot? = some q) →
        (a.id ∈ taken ↔ a.id ∈ taken') := fun a present ⟨q, inRest, slot⟩ =>
      agree a present ⟨q, List.mem_cons_of_mem r inRest, slot⟩
    cases found : free? existing taken r with
    | none =>
      rw [missing_cons_of_none found, missing_cons_of_none (same ▸ found), ih agreeRest]
    | some a =>
      rw [missing_cons_of_some found, missing_cons_of_some (same ▸ found)]
      refine ih fun b present slot => ?_
      rw [List.mem_cons, List.mem_cons, agreeRest b present slot]

/-- What is created and what meets the rest fill the slots that were required. -/
theorem slots_settle_perm (taken : List Int64) (required : List RequiredAppointment) :
    ((missing existing taken required).map some ++
        (meeting existing taken required).map ExistingAppointment.slot?).Perm
      (required.map some) := by
  induction required generalizing taken with
  | nil => exact .refl _
  | cons r rest ih =>
    cases found : free? existing taken r with
    | none =>
      rw [missing_cons_of_none found, meeting_cons_of_none found]
      exact (ih taken).cons (some r)
    | some a =>
      obtain ⟨-, same, -⟩ := free?_eq_some found
      rw [missing_cons_of_some found, meeting_cons_of_some found, List.map_cons, List.map_cons,
        same]
      exact List.perm_middle.trans ((ih (a.id :: taken)).cons (some r))

/-- Settling retains appointments as required only. -/
theorem retained_settle (taken : List Int64) (required : List RequiredAppointment) :
    (settle existing taken required).1.filterMap Action.retained? =
      (meeting existing taken required).map fun a => (a, .required) := by
  induction required generalizing taken with
  | nil => rfl
  | cons r rest ih =>
    cases found : free? existing taken r with
    | none =>
      rw [meeting_cons_of_none found, settle_created found]
      exact ih taken
    | some a =>
      rw [meeting_cons_of_some found, settle_met found]
      exact congrArg ((a, RetainReason.required) :: ·) (ih (a.id :: taken))

theorem settle_settled (existing : List ExistingAppointment) (taken : List Int64)
    (required : List RequiredAppointment) :
    Settled existing taken required (missing existing taken required)
      (meeting existing taken required) (settle existing taken required).2 := by
  induction required generalizing taken with
  | nil => exact ⟨List.Sublist.refl _, by simp [meeting, settle], by simp [meeting, settle],
      by simp [meeting, settle], by simp [meeting, settle], by simp [missing, meeting, settle]⟩
  | cons r rest ih =>
    cases found : free? existing taken r with
    | none =>
      have settled := ih taken
      rw [missing_cons_of_none found, meeting_cons_of_none found, settle_created found]
      refine ⟨settled.part.cons_cons r, ?_, settled.untaken, settled.distinct, settled.taken, ?_⟩
      · intro a member
        obtain ⟨present, q, inRest, same⟩ := settled.meets a member
        exact ⟨present, q, List.mem_cons_of_mem _ inRest, same⟩
      · rw [timeOf_cons, timeOf_cons, ← settled.time]
        omega
    | some a =>
      obtain ⟨member, same, untaken⟩ := free?_eq_some found
      have settled := ih (a.id :: taken)
      rw [missing_cons_of_some found, meeting_cons_of_some found, settle_met found]
      refine ⟨settled.part.cons r, ?_, ?_, ?_, ?_, ?_⟩
      · intro b inMet
        rcases List.mem_cons.mp inMet with rfl | later
        · exact ⟨member, r, List.mem_cons_self, same⟩
        · obtain ⟨present, q, inRest, slot⟩ := settled.meets b later
          exact ⟨present, q, List.mem_cons_of_mem _ inRest, slot⟩
      · intro b inMet
        rcases List.mem_cons.mp inMet with rfl | later
        · exact untaken
        · exact fun before => settled.untaken b later (List.mem_cons_of_mem _ before)
      · refine List.nodup_cons.mpr ⟨?_, settled.distinct⟩
        intro again
        obtain ⟨b, later, same⟩ := List.mem_map.mp again
        exact settled.untaken b later (by simp [same])
      · intro id
        rw [settled.taken id]
        simp only [List.mem_cons, List.map_cons]
        exact or_assoc.trans or_left_comm
      · have length := (RequiredAppointment.of_slot same).2.1
        rw [timeOf_cons, timeOf_cons, ← settled.time, length]
        omega

end Settle
end UnpaidWork
