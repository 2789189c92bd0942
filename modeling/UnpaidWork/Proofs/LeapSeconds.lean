import UnpaidWork.Proofs.Charges
import UnpaidWork.Proofs.Settlement

/-!
Slots that end inside a leap second. The length of such a slot counts the part
of the leap second that belongs to it, but a time that is moved forward passes a
leap second as if there were none, unless it starts in it. So an appointment
that lasts until the leap second begins, or longer, ends after its slot, and on
the next day if the leap second is the last one of the day. All other
appointments fit their slots, those that start inside a leap second included.
-/
namespace UnpaidWork

/-- A duration that is not negative has no negative part. -/
theorem Duration.parts_of_nonneg {d : Duration} (positive : 0 ≤ d.nanos) :
    0 ≤ d.wholeSeconds ∧ 0 ≤ d.subsecondNanos ∧ d.subsecondNanos < 1000000000 :=
  ⟨Int.tdiv_nonneg positive (by decide), Int.tmod_nonneg _ positive,
    Int.tmod_lt_of_pos _ (by decide)⟩

namespace TimeOfDay
variable {a b : TimeOfDay} {length : Duration}

/-- Nanoseconds since midnight on a clock that shows the second before a leap second twice. -/
def clock (t : TimeOfDay) : Int := t.second * 1000000000 + t.nano % 1000000000

theorem inLeapSecond_eq_true : a.inLeapSecond = true ↔ 1000000000 ≤ a.nano := by
  simp [inLeapSecond]

/-- Unless both times lie in one leap second, a length is taken from the clock of its start. -/
theorem nanos_lengthTo_of_apart (order : a.second ≤ b.second)
    (apart : a.inLeapSecond → a.second ≠ b.second) :
    (a.lengthTo b).nanos = b.sinceMidnight - a.clock := by
  have := a.nano_lt
  simp only [inLeapSecond, decide_eq_true_eq] at apart
  simp only [lengthTo, nanosTo, sinceMidnight, clock, inLeapSecond, decide_eq_true_eq]
  split
  · split <;> omega
  · split
    · omega
    · omega

/-- Within one second, leap seconds included, nanoseconds tell a length. -/
theorem nanos_lengthTo_of_same (same : a.second = b.second) :
    (a.lengthTo b).nanos = b.nano - a.nano := by
  simp only [lengthTo, nanosTo, same, Nat.lt_irrefl, if_false]
  omega

theorem second_le_of_le (order : a ≤ b) : a.second ≤ b.second := by
  have := b.nano_lt
  simp only [le_iff, rank] at order
  omega

theorem second_le_of_lt (order : a < b) : a.second ≤ b.second :=
  second_le_of_le (Nat.le_of_lt order)

/-- A move that stays inside the leap second in which it starts. -/
theorem shift_within (inside : a.inLeapSecond) (positive : 0 ≤ length.nanos)
    (stays : a.nano + length.nanos < 2000000000) :
    (a.shift length).second = a.second ∧ (a.shift length).nano = a.nano + length.nanos := by
  have inside := inLeapSecond_eq_true.mp inside
  have parts := length.wholeSeconds_mul_add
  have nonneg := Duration.parts_of_nonneg positive
  simp only [shift]
  rw [if_pos inside, dif_neg (by omega), if_neg (by omega)]
  exact ⟨rfl, by dsimp only; omega⟩

/-- Any other move forward goes by the clock, around midnight, and ends outside leap seconds. -/
theorem shift_leaving (positive : 0 ≤ length.nanos)
    (leaves : a.inLeapSecond → 2000000000 ≤ a.nano + length.nanos) :
    (a.shift length).inLeapSecond = false ∧
      (a.shift length).sinceMidnight = (a.clock + length.nanos) % 86400000000000 := by
  have parts := length.wholeSeconds_mul_add
  have moved : ∃ seconds nanos, a.shift length = wrap seconds nanos ∧
      seconds * 1000000000 + nanos = a.clock + length.nanos := by
    have := a.nano_lt
    simp only [inLeapSecond, decide_eq_true_eq] at leaves
    by_cases inside : 1000000000 ≤ a.nano
    · have nonneg := Duration.parts_of_nonneg positive
      have passes := leaves inside
      refine ⟨a.second + length.wholeSeconds, a.nano - 1000000000 + length.subsecondNanos, ?_, ?_⟩
      · simp only [shift]
        rw [if_pos inside, dif_pos (by omega)]
      · simp only [clock]
        omega
    · refine ⟨a.second + length.wholeSeconds, a.nano + length.subsecondNanos, ?_, ?_⟩
      · simp only [shift]
        rw [if_neg inside]
      · simp only [clock]
        omega
  obtain ⟨seconds, nanos, same, total⟩ := moved
  rw [same, ← total]
  refine ⟨inLeapSecond_wrap seconds nanos, ?_⟩
  simp only [wrap, sinceMidnight]
  omega

/-- A move by the clock that ends on the same day takes exactly the length it is given. -/
theorem shift_leaving_sameDay (positive : 0 < length.nanos)
    (leaves : a.inLeapSecond → 2000000000 ≤ a.nano + length.nanos)
    (sameDay : a.clock + length.nanos < 86400000000000) :
    a < a.shift length ∧ (a.shift length).sinceMidnight = a.clock + length.nanos ∧
      a.lengthTo (a.shift length) = length := by
  obtain ⟨regular, position⟩ := shift_leaving (Int.le_of_lt positive) leaves
  have := a.nano_lt
  have fraction := inLeapSecond_eq_false.mp regular
  have clock : a.clock = a.second * 1000000000 + a.nano % 1000000000 := rfl
  rw [Int.emod_eq_of_lt (by omega) sameDay] at position
  have arrival : (a.shift length).second * 1000000000 + (a.shift length).nano =
      a.clock + length.nanos := position
  have apart : a.inLeapSecond → a.second < (a.shift length).second := by
    intro inside
    have passes := leaves inside
    have inside := inLeapSecond_eq_true.mp inside
    omega
  refine ⟨?_, position, Duration.ext ?_⟩
  · simp only [inLeapSecond, decide_eq_true_eq] at apart
    simp only [lt_iff, rank]
    omega
  · rw [nanos_lengthTo_of_apart (by omega) fun inside => Nat.ne_of_lt (apart inside), position]
    omega

/-- To move `a` forward by `length` overruns when `b` lies in a leap second, and the
move starts before this second but does not end before it begins. -/
structure Overruns (a b : TimeOfDay) (length : Duration) : Prop where
  leapSecond : b.inLeapSecond
  before : a.inLeapSecond → a.second ≠ b.second
  exceeds : (a.lengthTo b).nanos - length.nanos ≤ b.nano - 1000000000

/-- What overruns leaves the leap second in which it starts, if it starts in one. -/
theorem Overruns.leaves (order : a < b) (overruns : a.Overruns b length)
    (inside : a.inLeapSecond) : 2000000000 ≤ a.nano + length.nanos := by
  obtain ⟨-, apart, exceeds⟩ := overruns
  have seconds := second_le_of_lt order
  have different := apart inside
  have inside := inLeapSecond_eq_true.mp inside
  have clock : a.clock = a.second * 1000000000 + a.nano % 1000000000 := rfl
  have finish : b.sinceMidnight = b.second * 1000000000 + b.nano := rfl
  have := a.nano_lt
  rw [nanos_lengthTo_of_apart seconds apart] at exceeds
  omega

section Slot
variable (order : a < b) (fits : length ≤ a.lengthTo b)
include order fits

/-- A move by the clock within the length of a slot does not pass the end of the slot. -/
theorem clock_add_le (leaves : a.inLeapSecond → 2000000000 ≤ a.nano + length.nanos) :
    (a.inLeapSecond → a.second ≠ b.second) ∧ a.clock + length.nanos ≤ b.sinceMidnight := by
  have seconds : a.second ≤ b.second := second_le_of_lt order
  have apart : a.inLeapSecond → a.second ≠ b.second := by
    intro inside same
    have passes := leaves inside
    have := b.nano_lt
    rw [Duration.le_iff, nanos_lengthTo_of_same same] at fits
    omega
  rw [Duration.le_iff, nanos_lengthTo_of_apart seconds apart] at fits
  exact ⟨apart, by omega⟩

/-- A move by the clock overruns when it passes the second which the leap second repeats. -/
theorem overruns_iff_of_leaving (leaves : a.inLeapSecond → 2000000000 ≤ a.nano + length.nanos) :
    a.Overruns b length ↔ (b.second + 1) * 1000000000 ≤ a.clock + length.nanos := by
  obtain ⟨apart, bound⟩ := clock_add_le order fits leaves
  have whole := nanos_lengthTo_of_apart (second_le_of_lt order) apart
  have finish : b.sinceMidnight = b.second * 1000000000 + b.nano := rfl
  constructor
  · rintro ⟨-, -, exceeds⟩
    omega
  · exact fun passes => ⟨inLeapSecond_eq_true.mpr (by omega), apart, by omega⟩

/-- Unless it overruns, a move by no more than the length of a slot stays in
the slot and takes exactly the length it is given. -/
theorem shift_fits (positive : 0 < length.nanos) (inTime : ¬ a.Overruns b length) :
    a < a.shift length ∧ a.shift length ≤ b ∧ a.lengthTo (a.shift length) = length := by
  -- A move inside a leap second does not go by the clock: its nanoseconds alone run on.
  by_cases stays : a.inLeapSecond ∧ a.nano + length.nanos < 2000000000
  · obtain ⟨second, nano⟩ := shift_within stays.1 (Int.le_of_lt positive) stays.2
    have seconds := second_le_of_lt order
    refine ⟨?_, ?_, Duration.ext ?_⟩
    · simp only [lt_iff, rank]
      omega
    · simp only [le_iff, rank]
      rcases Nat.lt_or_eq_of_le seconds with earlier | same
      · omega
      · rw [Duration.le_iff, nanos_lengthTo_of_same same] at fits
        omega
    · rw [nanos_lengthTo_of_same second.symm]
      omega
  · have leaves : a.inLeapSecond → 2000000000 ≤ a.nano + length.nanos :=
      fun inside => Int.not_lt.mp fun short => stays ⟨inside, short⟩
    rw [overruns_iff_of_leaving order fits leaves] at inTime
    have := b.second_lt
    obtain ⟨later, position, exact⟩ := shift_leaving_sameDay positive leaves (by omega)
    refine ⟨later, ?_, exact⟩
    simp only [sinceMidnight] at position
    obtain ⟨-, bound⟩ := clock_add_le order fits leaves
    simp only [sinceMidnight] at bound
    simp only [le_iff, rank]
    omega

/-- A move that overruns on the same day ends late, though it takes the length it is given. -/
theorem shift_late (positive : 0 < length.nanos) (overruns : a.Overruns b length)
    (sameDay : b.second < 86399) :
    a < a.shift length ∧ b < a.shift length ∧ a.lengthTo (a.shift length) = length := by
  have leaves := overruns.leaves order
  have passes := (overruns_iff_of_leaving order fits leaves).mp overruns
  obtain ⟨-, bound⟩ := clock_add_le order fits leaves
  have := b.nano_lt
  simp only [sinceMidnight] at bound
  obtain ⟨later, position, exact⟩ := shift_leaving_sameDay positive leaves (by omega)
  refine ⟨later, ?_, exact⟩
  have regular := inLeapSecond_eq_false.mp (shift_leaving (Int.le_of_lt positive) leaves).1
  simp only [sinceMidnight] at position
  simp only [lt_iff, rank]
  omega

/-- A move that overruns at the end of the day ends in the first second of a
day, so the time to its end falls short by a day. -/
theorem shift_past_midnight (positive : 0 < length.nanos) (overruns : a.Overruns b length)
    (midnight : b.second = 86399) :
    (a.shift length).second = 0 ∧
      (a.lengthTo (a.shift length)).nanos ≤ length.nanos - 86400000000000 := by
  have leaves := overruns.leaves order
  have passes := (overruns_iff_of_leaving order fits leaves).mp overruns
  obtain ⟨-, bound⟩ := clock_add_le order fits leaves
  obtain ⟨regular, position⟩ := shift_leaving (Int.le_of_lt positive) leaves
  have := b.nano_lt
  have fraction := inLeapSecond_eq_false.mp regular
  simp only [sinceMidnight] at bound position
  have second : (a.shift length).second = 0 := by omega
  have clock : a.clock = a.second * 1000000000 + a.nano % 1000000000 := rfl
  have nano := Nat.mod_le a.nano 1000000000
  refine ⟨second, ?_⟩
  rcases Nat.eq_zero_or_pos a.second with same | later
  · rw [nanos_lengthTo_of_same (same.trans second.symm)]
    omega
  · simp only [lengthTo, nanosTo, second, regular, Nat.not_lt_zero, later, Bool.false_eq_true,
      if_true, if_false]
    omega

end Slot
end TimeOfDay

namespace Use

/-- The appointment of a use is made for a part of its slot, as long as the use is. -/
structure Fits (u : Use) : Prop where
  start : u.appointment.startTime = u.allocation.startTime
  proper : u.appointment.startTime < u.appointment.endTime
  within : u.appointment.endTime ≤ u.allocation.endTime
  duration : u.appointment.duration = u.length
  /-- Once it is made, no later run refuses it. -/
  accepted : ∀ b : ExistingAppointment, b.slot? = some u.appointment → b.validate = .ok ()

/-- The use lasts until the leap second in which its slot ends begins, or longer. -/
def Overruns (u : Use) : Prop :=
  u.allocation.startTime.Overruns u.allocation.endTime u.length

/-- The appointment of a use ends after its slot: late, or at the start of the
next day, which its time of day does not show. -/
inductive Spills (u : Use) : Prop
  | late (sameDay : u.allocation.endTime.second < 86399)
      (proper : u.appointment.startTime < u.appointment.endTime)
      (beyond : u.allocation.endTime < u.appointment.endTime)
      (duration : u.appointment.duration = u.length)
  | pastMidnight (lastSecond : u.allocation.endTime.second = 86399)
      (firstSecond : u.appointment.endTime.second = 0)
      (short : u.appointment.duration.nanos ≤ u.length.nanos - 86400000000000)
      (refused : 0 < u.allocation.startTime.second →
        ∀ b : ExistingAppointment, b.slot? = some u.appointment → b.validate ≠ .ok ())

variable {u : Use}

theorem validate_eq_ok_iff {b : ExistingAppointment} (made : b.slot? = some u.appointment) :
    b.validate = .ok () ↔ u.appointment.startTime ≤ u.appointment.endTime := by
  obtain ⟨id, -, same⟩ := Option.map_eq_some_iff.mp made
  rw [b.validate_eq_ok_iff, ← same]

theorem length_pos (usable : u.allocation.IsValid) (something : 0 < u.before.nanos) :
    0 < u.length.nanos := by
  have shorter := Duration.nanos_min u.before u.slot.duration
  have whole : 0 < u.slot.duration.nanos := usable.duration_pos
  change 0 < (u.before.min u.slot.duration).nanos
  omega

theorem length_le (u : Use) :
    u.length ≤ u.allocation.startTime.lengthTo u.allocation.endTime := by
  have shorter := Duration.nanos_min u.before u.slot.duration
  change (u.before.min u.slot.duration).nanos ≤ u.slot.duration.nanos
  omega

theorem fits_of_not_overruns (usable : u.allocation.IsValid) (something : 0 < u.before.nanos)
    (inTime : ¬ u.Overruns) : u.Fits := by
  obtain ⟨proper, within, duration⟩ :=
    TimeOfDay.shift_fits usable.2 u.length_le (length_pos usable something) inTime
  exact ⟨rfl, proper, within, duration, fun b made =>
    (validate_eq_ok_iff made).mpr (Nat.le_of_lt proper)⟩

theorem Overruns.spills (usable : u.allocation.IsValid) (something : 0 < u.before.nanos)
    (overruns : u.Overruns) : u.Spills := by
  have positive := length_pos usable something
  have bound := u.allocation.endTime.second_lt
  rcases Nat.lt_or_ge u.allocation.endTime.second 86399 with sameDay | last
  · obtain ⟨proper, beyond, duration⟩ :=
      TimeOfDay.shift_late usable.2 u.length_le positive overruns sameDay
    exact .late sameDay proper beyond duration
  · have midnight : u.allocation.endTime.second = 86399 := by omega
    obtain ⟨first, short⟩ :=
      TimeOfDay.shift_past_midnight usable.2 u.length_le positive overruns midnight
    refine .pastMidnight midnight first short fun later b made accepted => ?_
    have order := TimeOfDay.second_le_of_le ((validate_eq_ok_iff made).mp accepted)
    change u.allocation.startTime.second ≤ u.appointment.endTime.second at order
    change u.appointment.endTime.second = 0 at first
    omega

theorem Spills.not_fits (spills : u.Spills) : ¬ u.Fits := by
  rintro ⟨-, -, within, duration, -⟩
  cases spills with
  | late _ _ beyond => exact absurd beyond (Nat.not_lt.mpr within)
  | pastMidnight _ _ short =>
    rw [duration] at short
    omega

end Use

namespace Request
variable {r : Request} {h : UInt32} {remaining : Duration} {s : Schedule}

/-- Each required appointment is made for as much of its slot as remained to be
done just before it, unless this overruns the leap second in which the slot ends. -/
theorem appointments_fit_unless_they_overrun (usable : ∀ a ∈ r.allocations, a.IsValid)
    (scheduled : (r.schedule h remaining).result = .ok s) :
    ∃ charges, r.Accounts h remaining s
        (fun a b => slotOrder a.startTime a.id b.startTime b.id) charges ∧
      ∀ earlier u later, charges = earlier ++ .use u :: later →
        u.before.nanos = remaining.nanos - timeOf Charge.time earlier ∧
        (u.Fits ↔ ¬ u.Overruns) ∧ (u.Overruns → u.Spills) := by
  obtain ⟨charges, accounts⟩ := exists_accounts (mergeSort_slotOrder _ _ _) scheduled
  refine ⟨charges, accounts, ?_⟩
  rintro earlier u later rfl
  have listed := accounts.listed u (List.mem_append_right earlier List.mem_cons_self)
  have usable := usable u.allocation listed
  obtain ⟨left, ledger, -⟩ := accounts.ledger
  obtain ⟨something, before⟩ := ledger.before_use
  have spills := Use.Overruns.spills usable something
  refine ⟨before, ⟨fun fits overruns => ?_, ?_⟩, spills⟩
  · exact (spills overruns).not_fits fits
  · exact Use.fits_of_not_overruns usable something

/-- A slot to the leap second before noon, for three hours: the first appointment
ends at noon, after its slot, and the second one at eleven. -/
theorem appointments_overrun_noon :
    let leapSecond : TimeOfDay := ⟨43199, 1000000000, by decide, by decide⟩
    let a := { Sample.mondays .weekly with endTime := leapSecond }
    let threeHours : Duration := ⟨10800000000000, by decide⟩
    let r := { Sample.request .manual .weekly threeHours [] with allocations := [a] }
    let eleven : TimeOfDay := .wrap 39600 0
    let s : Schedule := ⟨[Sample.slot Sample.monday,
      { Sample.slot Sample.nextMonday with endTime := eleven }], [], .zero⟩
    (∀ a ∈ r.allocations, a.IsValid) ∧ (r.schedule 365 threeHours).result = .ok s ∧
      ∃ charges, r.Accounts 365 threeHours s
          (fun a b => slotOrder a.startTime a.id b.startTime b.id) charges ∧
        ∀ earlier u later, charges = earlier ++ .use u :: later →
          u.before.nanos = threeHours.nanos - timeOf Charge.time earlier ∧
          (u.Fits ↔ ¬ u.Overruns) ∧ (u.Overruns → u.Spills) := by
  intro leapSecond a threeHours r eleven s
  have usable : ∀ a ∈ r.allocations, a.IsValid := by
    intro b member
    cases List.mem_singleton.mp member
    have order : Sample.ten < leapSecond := by decide
    exact ⟨(fun last ends => nomatch ends), order⟩
  have scheduled : (r.schedule 365 threeHours).result = .ok s := by cbv
  exact ⟨usable, scheduled, appointments_fit_unless_they_overrun usable scheduled⟩

/-- A slot of fourteen hours to the leap second at the end of the day: its
appointment ends at midnight before it starts, and once it is made no further
run accepts it. -/
theorem appointment_to_the_leap_second_ends_at_midnight :
    let leapSecond : TimeOfDay := ⟨86399, 1000000000, by decide, by decide⟩
    let a := { Sample.mondays .weekly with endTime := leapSecond }
    let fourteenHours : Duration := ⟨50400000000000, by decide⟩
    let r := { Sample.request .manual .weekly fourteenHours [] with allocations := [a] }
    let midnight : TimeOfDay := .wrap 0 0
    let q := { Sample.slot Sample.monday with endTime := midnight }
    let made := { Sample.booking 7 Sample.monday with endTime := midnight }
    a.validate = .ok () ∧ (r.schedule 365 fourteenHours).result = .ok ⟨[q], [], .zero⟩ ∧
      q.endTime < q.startTime ∧ q.duration.nanos < 0 ∧ made.slot? = some q ∧
      RequirementDetails.request ⟨fourteenHours, [a], [made], .empty⟩ r.today r.trigger =
        .error (.appointmentTimes 7 Sample.ten midnight) := by
  intro leapSecond a fourteenHours r midnight q made
  exact ⟨by cbv, by cbv, by decide, by decide, rfl, by cbv⟩

end Request
end UnpaidWork
