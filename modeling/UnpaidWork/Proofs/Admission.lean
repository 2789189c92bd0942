import UnpaidWork.Proofs.Lengths
import UnpaidWork.Service

/-!
What a run may rely on. A request that the service builds has usable
allocations only and no appointment that ends before it starts; away from leap
seconds this makes every slot an exact length of time: allocations take some
time, whatever they are cut to is granted exactly, and no booking is negative.
-/
namespace UnpaidWork

/-- The request is one that the service builds from what the case system knows. -/
def Request.Admitted (r : Request) : Prop :=
  ∃ (details : RequirementDetails) (today : Date) (trigger : Trigger),
    details.request today trigger = .ok r

/-- No allocation and no appointment starts or ends inside a leap second. -/
structure Request.Regular (r : Request) : Prop where
  allocations : ∀ a ∈ r.allocations,
    a.startTime.inLeapSecond = false ∧ a.endTime.inLeapSecond = false
  appointments : ∀ b ∈ r.existingAppointments,
    b.startTime.inLeapSecond = false ∧ b.endTime.inLeapSecond = false

/-- A use of the allocation takes time, and a use cut to a length has that length. -/
structure Allocation.Divisible (a : Allocation) : Prop where
  positive : 0 < a.duration.nanos
  cut : ∀ length : Duration, 0 ≤ length.nanos → length ≤ a.duration →
    a.startTime.lengthTo (a.startTime.shift length) = length

/-- Checking some items in turn succeeds exactly when every check does. -/
theorem forM_eq_ok {α ε : Type} {check : α → Except ε Unit} {items : List α} :
    items.forM check = .ok () ↔ ∀ item ∈ items, check item = .ok () := by
  induction items with
  | nil =>
    constructor
    · intro _ item member
      cases member
    · intro _
      rfl
  | cons first rest ih =>
    have tail : forM rest check = .ok () ↔ ∀ item ∈ rest, check item = .ok () := ih
    rw [List.forM_eq_forM, List.forM_cons]
    constructor
    · intro checked
      obtain ⟨_, head, later⟩ := bind_eq_ok.mp checked
      intro item member
      rcases List.mem_cons.mp member with rfl | inRest
      · exact head
      · exact tail.mp later item inRest
    · intro accepted
      have later := tail.mpr fun item member => accepted item (List.mem_cons_of_mem first member)
      exact bind_eq_ok.mpr ⟨(), accepted first List.mem_cons_self, later⟩

namespace RequirementDetails
variable {d : RequirementDetails} {today : Date} {trigger : Trigger} {r : Request}

theorem request_eq_ok (built : d.request today trigger = .ok r) :
    d.existingAppointments.forM ExistingAppointment.validate = .ok () ∧
      r = ⟨today, trigger, d.requirement, d.usableAllocations, d.existingAppointments,
        d.nonWorkingDates⟩ := by
  obtain ⟨_, checked, rest⟩ := bind_eq_ok.mp built
  cases rest
  exact ⟨checked, rfl⟩

theorem isValid_of_mem_usableAllocations {a : Allocation} (member : a ∈ d.usableAllocations) :
    a.IsValid := by
  obtain ⟨-, accepted⟩ := List.mem_filter.mp member
  rw [← Allocation.validate_eq_ok_iff]
  cases outcome : a.validate with
  | ok => rfl
  | error cause =>
    rw [outcome] at accepted
    cases accepted

end RequirementDetails

namespace Request
variable {r : Request}

theorem Admitted.allocation_isValid (admitted : r.Admitted) :
    ∀ a ∈ r.allocations, a.IsValid := by
  obtain ⟨details, today, trigger, built⟩ := admitted
  obtain ⟨-, rfl⟩ := RequirementDetails.request_eq_ok built
  intro a member
  exact RequirementDetails.isValid_of_mem_usableAllocations member

theorem Admitted.appointment_ordered (admitted : r.Admitted) :
    ∀ b ∈ r.existingAppointments, b.startTime ≤ b.endTime := by
  obtain ⟨details, today, trigger, built⟩ := admitted
  obtain ⟨checked, rfl⟩ := RequirementDetails.request_eq_ok built
  intro b member
  exact b.validate_eq_ok_iff.mp (forM_eq_ok.mp checked b member)

/-- Requests of usable allocations and ordered appointments are the ones that can be built. -/
theorem admitted_of_valid (usable : ∀ a ∈ r.allocations, a.IsValid)
    (ordered : ∀ b ∈ r.existingAppointments, b.startTime ≤ b.endTime) : r.Admitted := by
  let details : RequirementDetails :=
    ⟨r.requirement, r.allocations, r.existingAppointments, r.nonWorkingDates⟩
  have kept : details.usableAllocations = r.allocations := by
    refine List.filter_eq_self.mpr fun a member => ?_
    rw [a.validate_eq_ok_iff.mpr (usable a member)]
    rfl
  have checked : r.existingAppointments.forM ExistingAppointment.validate = .ok () :=
    forM_eq_ok.mpr fun b member => b.validate_eq_ok_iff.mpr (ordered b member)
  refine ⟨details, r.today, r.trigger, ?_⟩
  simp only [RequirementDetails.request, kept]
  exact bind_eq_ok.mpr ⟨(), checked, rfl⟩

theorem Admitted.divisible (admitted : r.Admitted) (regular : r.Regular) :
    ∀ a ∈ r.allocations, a.Divisible := by
  intro a member
  obtain ⟨start, finish⟩ := regular.allocations a member
  have order := (admitted.allocation_isValid a member).2
  rw [TimeOfDay.lt_iff_sinceMidnight start finish] at order
  refine ⟨?_, fun length positive fits => TimeOfDay.lengthTo_shift start finish positive fits⟩
  rw [Allocation.duration, TimeOfDay.nanos_lengthTo start finish]
  omega

theorem Admitted.booking_nonneg (admitted : r.Admitted) (regular : r.Regular) :
    ∀ b ∈ r.existingAppointments, 0 ≤ b.duration.nanos := by
  intro b member
  obtain ⟨start, finish⟩ := regular.appointments b member
  have order := admitted.appointment_ordered b member
  rw [TimeOfDay.le_iff_sinceMidnight start finish] at order
  rw [ExistingAppointment.duration, TimeOfDay.nanos_lengthTo start finish]
  omega

end Request

/-! A case to compute with: Mondays from ten to noon, and today is a Monday. -/

namespace Sample

def monday : Date := ⟨739165, by decide⟩

def nextMonday : Date := ⟨739172, by decide⟩

def ten : TimeOfDay := .wrap 36000 0

def noon : TimeOfDay := .wrap 43200 0

def twoHours : Duration := ⟨7200000000000, by decide⟩

def fourHours : Duration := ⟨14400000000000, by decide⟩

/-- The Mondays, as an allocation of some frequency. -/
def mondays (frequency : Frequency) : Allocation where
  id := 1
  projectCode := "A"
  frequency := frequency
  weekday := .monday
  startDate := monday
  startTime := ten
  endTime := noon

/-- The allocation's slot of one day, as an appointment to make. -/
def slot (day : Date) : RequiredAppointment := ⟨day, ten, noon, "A", 1⟩

/-- The same slot once it is made. -/
def booking (id : Int64) (day : Date) : ExistingAppointment where
  id := id
  projectCode := "A"
  date := day
  startTime := ten
  endTime := noon
  allocationId := some 1

def request (kind : TriggerType) (frequency : Frequency) (requirement : Duration)
    (existing : List ExistingAppointment) : Request where
  today := monday
  trigger := ⟨kind, ""⟩
  requirement := requirement
  allocations := [mondays frequency]
  existingAppointments := existing
  nonWorkingDates := .empty

variable {kind : TriggerType} {frequency : Frequency} {requirement : Duration}
variable {existing : List ExistingAppointment}

theorem admitted (ordered : ∀ b ∈ existing, b.startTime ≤ b.endTime) :
    (request kind frequency requirement existing).Admitted := by
  refine Request.admitted_of_valid (fun a member => ?_) ordered
  cases List.mem_singleton.mp member
  have order : ten < noon := by decide
  exact ⟨(fun last ends => nomatch ends), order⟩

theorem regular (outside : ∀ b ∈ existing,
    b.startTime.inLeapSecond = false ∧ b.endTime.inLeapSecond = false) :
    (request kind frequency requirement existing).Regular := by
  refine ⟨fun a member => ?_, outside⟩
  cases List.mem_singleton.mp member
  exact ⟨rfl, rfl⟩

end Sample
end UnpaidWork
