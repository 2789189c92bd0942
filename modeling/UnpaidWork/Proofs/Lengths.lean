import Mathlib.Data.List.Perm.Subperm
import UnpaidWork.Schedule

/-!
Lengths of slots and their sums. Outside leap seconds a time of day is a number
of nanoseconds since midnight and the length of a slot is a difference of two
such numbers, so a slot that is cut short has exactly the length it was cut to.
Sums are whole numbers without a bound: they can be compared before it is known
whether a duration holds them.
-/
namespace UnpaidWork

/-- Two steps in a row succeed when the first does and the second does on its result. -/
theorem bind_eq_ok {α β ε : Type} {x : Except ε α} {f : α → Except ε β} {b : β} :
    x.bind f = .ok b ↔ ∃ a, x = .ok a ∧ f a = .ok b := by
  cases x <;> simp [Except.bind]

theorem map_eq_ok {α β ε : Type} {x : Except ε α} {f : α → β} {b : β} :
    x.map f = .ok b ↔ ∃ a, x = .ok a ∧ f a = b := by
  cases x <;> simp [Except.map]

namespace TimeOfDay

/-- Nanoseconds since midnight. -/
def sinceMidnight (t : TimeOfDay) : Int := t.second * 1000000000 + t.nano

variable {a b : TimeOfDay}

theorem inLeapSecond_eq_false : a.inLeapSecond = false ↔ a.nano < 1000000000 := by
  simp [inLeapSecond]

theorem sinceMidnight_bounds (regular : a.inLeapSecond = false) :
    0 ≤ a.sinceMidnight ∧ a.sinceMidnight < 86400000000000 := by
  have := a.second_lt
  have := inLeapSecond_eq_false.mp regular
  simp only [sinceMidnight]
  omega

theorem le_iff_sinceMidnight (first : a.inLeapSecond = false) (second : b.inLeapSecond = false) :
    a ≤ b ↔ a.sinceMidnight ≤ b.sinceMidnight := by
  have := inLeapSecond_eq_false.mp first
  have := inLeapSecond_eq_false.mp second
  simp only [le_iff, rank, sinceMidnight]
  omega

theorem lt_iff_sinceMidnight (first : a.inLeapSecond = false) (second : b.inLeapSecond = false) :
    a < b ↔ a.sinceMidnight < b.sinceMidnight := by
  have := inLeapSecond_eq_false.mp first
  have := inLeapSecond_eq_false.mp second
  simp only [lt_iff, rank, sinceMidnight]
  omega

/-- Without leap seconds the length of a slot is a plain difference. -/
theorem nanos_lengthTo (first : a.inLeapSecond = false) (second : b.inLeapSecond = false) :
    (a.lengthTo b).nanos = b.sinceMidnight - a.sinceMidnight := by
  simp only [lengthTo, nanosTo, first, second, sinceMidnight]
  split
  · simp only [Bool.false_eq_true, if_false]
    omega
  · split
    · simp only [Bool.false_eq_true, if_false]
      omega
    · omega

theorem sinceMidnight_wrap {seconds nanos : Int} (start : 0 ≤ seconds * 1000000000 + nanos)
    (finish : seconds * 1000000000 + nanos < 86400000000000) :
    (wrap seconds nanos).sinceMidnight = seconds * 1000000000 + nanos := by
  simp only [wrap, sinceMidnight]
  omega

theorem inLeapSecond_wrap (seconds nanos : Int) : (wrap seconds nanos).inLeapSecond = false := by
  rw [inLeapSecond_eq_false]
  simp only [wrap]
  omega

theorem shift_eq_wrap (regular : a.inLeapSecond = false) (d : Duration) :
    a.shift d = wrap (a.second + d.wholeSeconds) (a.nano + d.subsecondNanos) := by
  have outside : ¬ 1000000000 ≤ a.nano := by
    have := inLeapSecond_eq_false.mp regular
    omega
  simp [shift, outside]

theorem inLeapSecond_shift (regular : a.inLeapSecond = false) (d : Duration) :
    (a.shift d).inLeapSecond = false := by
  rw [shift_eq_wrap regular]
  exact inLeapSecond_wrap _ _

/-- Moving a time within its day takes exactly the length it is moved by. -/
theorem sinceMidnight_shift (first : a.inLeapSecond = false) (second : b.inLeapSecond = false)
    {length : Duration} (positive : 0 ≤ length.nanos) (fits : length ≤ a.lengthTo b) :
    (a.shift length).sinceMidnight = a.sinceMidnight + length.nanos := by
  rw [Duration.le_iff, nanos_lengthTo first second] at fits
  have start := sinceMidnight_bounds first
  have finish := sinceMidnight_bounds second
  have parts := length.wholeSeconds_mul_add
  have moved : (a.second + length.wholeSeconds) * 1000000000 + (a.nano + length.subsecondNanos) =
      a.sinceMidnight + length.nanos := by
    simp only [sinceMidnight]
    omega
  rw [shift_eq_wrap first, sinceMidnight_wrap (by omega) (by omega), moved]

/-- A slot that is cut to a length, or left as long as it is, has that length. -/
theorem lengthTo_shift (first : a.inLeapSecond = false) (second : b.inLeapSecond = false)
    {length : Duration} (positive : 0 ≤ length.nanos) (fits : length ≤ a.lengthTo b) :
    a.lengthTo (a.shift length) = length := by
  apply Duration.ext
  rw [nanos_lengthTo first (inLeapSecond_shift first length),
    sinceMidnight_shift first second positive fits]
  omega

/-- Within a slot, a longer part of it ends later. -/
theorem shift_le_shift (first : a.inLeapSecond = false) (second : b.inLeapSecond = false)
    {length longer : Duration} (positive : 0 ≤ length.nanos) (order : length ≤ longer)
    (fits : longer ≤ a.lengthTo b) : a.shift length ≤ a.shift longer := by
  rw [Duration.le_iff] at order fits
  have fitsToo : length ≤ a.lengthTo b := Int.le_trans order fits
  rw [le_iff_sinceMidnight (inLeapSecond_shift first length) (inLeapSecond_shift first longer),
    sinceMidnight_shift first second positive fitsToo,
    sinceMidnight_shift first second (Int.le_trans positive order) fits]
  omega

end TimeOfDay

/-! Sums of lengths -/

section Sums
variable {α : Type} {length : α → Duration} {items more : List α} {item : α}

/-- The nanoseconds that some items take together. -/
def timeOf (length : α → Duration) : List α → Int
  | [] => 0
  | item :: rest => (length item).nanos + timeOf length rest

@[simp] theorem timeOf_nil : timeOf length [] = 0 := rfl

@[simp] theorem timeOf_cons :
    timeOf length (item :: items) = (length item).nanos + timeOf length items := rfl

@[simp] theorem timeOf_append :
    timeOf length (items ++ more) = timeOf length items + timeOf length more := by
  induction items with
  | nil => simp
  | cons first rest ih =>
    rw [List.cons_append, timeOf_cons, timeOf_cons, ih]
    omega

theorem timeOf_map {β : Type} (f : β → α) (others : List β) :
    timeOf length (others.map f) = timeOf (fun other => length (f other)) others := by
  induction others with
  | nil => rfl
  | cons first rest ih => rw [List.map_cons, timeOf_cons, timeOf_cons, ih]

theorem timeOf_perm (same : items.Perm more) : timeOf length items = timeOf length more := by
  induction same with
  | nil => rfl
  | cons first _ ih => rw [timeOf_cons, timeOf_cons, ih]
  | swap first second rest =>
    simp only [timeOf_cons]
    omega
  | trans _ _ first second => rw [first, second]

theorem timeOf_nonneg (proper : ∀ item ∈ items, 0 ≤ (length item).nanos) :
    0 ≤ timeOf length items := by
  induction items with
  | nil => simp
  | cons first rest ih =>
    have head := proper first (by simp)
    have tail := ih fun item member => proper item (by simp [member])
    rw [timeOf_cons]
    omega

theorem eq_nil_of_timeOf_nonpos (positive : ∀ item ∈ items, 0 < (length item).nanos)
    (nothing : timeOf length items ≤ 0) : items = [] := by
  cases items with
  | nil => rfl
  | cons first rest =>
    have head := positive first List.mem_cons_self
    have tail : 0 ≤ timeOf length rest := timeOf_nonneg fun item member =>
      Int.le_of_lt (positive item (List.mem_cons_of_mem first member))
    rw [timeOf_cons] at nothing
    omega

theorem timeOf_sublist (part : items.Sublist more)
    (proper : ∀ item ∈ more, 0 ≤ (length item).nanos) :
    timeOf length items ≤ timeOf length more := by
  induction part with
  | slnil => simp
  | cons first _ ih =>
    have head := proper first (by simp)
    have tail := ih fun item member => proper item (by simp [member])
    rw [timeOf_cons]
    omega
  | cons_cons first _ ih =>
    have tail := ih fun item member => proper item (by simp [member])
    rw [timeOf_cons, timeOf_cons]
    omega

theorem timeOf_subperm (part : items.Subperm more)
    (proper : ∀ item ∈ more, 0 ≤ (length item).nanos) :
    timeOf length items ≤ timeOf length more := by
  obtain ⟨ordered, order, sublist⟩ := part
  rw [← timeOf_perm order]
  exact timeOf_sublist sublist proper

/-- A list is made of the items that a test accepts and of the others. -/
theorem timeOf_filter_add (length : α → Duration) (test : α → Bool) (items : List α) :
    timeOf length (items.filter test) + timeOf length (items.filter fun item => !test item) =
      timeOf length items := by
  rw [← timeOf_append]
  exact timeOf_perm (List.filter_append_perm test items)

end Sums

namespace Duration

theorem nanos_foldlM_plus {lengths : List Duration} {start finish : Duration}
    (added : lengths.foldlM plus start = .ok finish) :
    finish.nanos = start.nanos + timeOf id lengths := by
  induction lengths generalizing start with
  | nil =>
    cases added
    simp
  | cons first rest ih =>
    rw [List.foldlM_cons] at added
    obtain ⟨next, step, rest⟩ := bind_eq_ok.mp added
    have later := ih rest
    rw [plus_eq_ok.mp step] at later
    simp only [timeOf_cons, id_eq]
    omega

/-- A sum that could be taken is the exact sum. -/
theorem nanos_total {lengths : List Duration} {sum : Duration} (added : total lengths = .ok sum) :
    sum.nanos = timeOf id lengths := by
  have := nanos_foldlM_plus added
  simpa using this

/-- The same length of time, counted as positive. -/
def abs (d : Duration) : Duration :=
  ⟨d.nanos.natAbs, by have := d.bounded; omega⟩

theorem nanos_abs (d : Duration) : d.abs.nanos = d.nanos.natAbs := rfl

theorem abs_nonneg (d : Duration) : 0 ≤ d.abs.nanos := Int.natCast_nonneg _

/-- Counted as positive, lengths bound their sum from both sides. -/
theorem timeOf_bounds (lengths : List Duration) :
    -timeOf abs lengths ≤ timeOf id lengths ∧ timeOf id lengths ≤ timeOf abs lengths := by
  induction lengths with
  | nil => simp
  | cons first rest ih =>
    simp only [timeOf_cons, nanos_abs, id_eq]
    omega

theorem timeOf_abs_of_nonneg {lengths : List Duration}
    (proper : ∀ length ∈ lengths, 0 ≤ length.nanos) : timeOf abs lengths = timeOf id lengths := by
  induction lengths with
  | nil => rfl
  | cons first rest ih =>
    have head : 0 ≤ first.nanos := proper first List.mem_cons_self
    rw [timeOf_cons, timeOf_cons, nanos_abs, Int.natAbs_of_nonneg head, id_eq,
      ih fun length member => proper length (List.mem_cons_of_mem first member)]

theorem foldlM_plus_of_abs {lengths : List Duration} (start : Duration)
    (fits : start.abs.nanos + timeOf abs lengths ≤ limit) :
    ∃ finish, lengths.foldlM plus start = .ok finish := by
  induction lengths generalizing start with
  | nil => exact ⟨start, rfl⟩
  | cons first rest ih =>
    have tail : 0 ≤ timeOf abs rest := timeOf_nonneg fun length _ => length.abs_nonneg
    simp only [timeOf_cons, nanos_abs] at fits
    let next : Duration := ⟨start.nanos + first.nanos, by omega⟩
    have step : start.plus first = .ok next := plus_eq_ok.mpr rfl
    have shorter : next.abs.nanos ≤ start.nanos.natAbs + first.nanos.natAbs := by
      simp only [nanos_abs, next]
      omega
    obtain ⟨finish, added⟩ := ih next (by omega)
    refine ⟨finish, ?_⟩
    rw [List.foldlM_cons, step]
    exact added

/-- Lengths of either sign can be added up, in any order, when together they are
within the limit if each is counted as positive. -/
theorem total_of_abs {lengths : List Duration} (fits : timeOf abs lengths ≤ limit) :
    ∃ sum, total lengths = .ok sum := by
  apply foldlM_plus_of_abs zero
  simpa [nanos_abs] using fits

/-- Lengths that are not negative can be added up when their sum is within the limit. -/
theorem total_of_nonneg {lengths : List Duration} (proper : ∀ length ∈ lengths, 0 ≤ length.nanos)
    (fits : timeOf id lengths ≤ limit) : ∃ sum, total lengths = .ok sum :=
  total_of_abs (timeOf_abs_of_nonneg proper ▸ fits)

end Duration

/-- The time that a schedule fills is that of both kinds of its appointments. -/
theorem Schedule.timeOf_lengths (s : Schedule) :
    timeOf id s.lengths =
      timeOf RequiredAppointment.duration s.requiredAppointments +
        timeOf ExistingAppointment.duration s.forcedRetentions := by
  simp [Schedule.lengths, timeOf_map]

end UnpaidWork
