import UnpaidWork.Duration

/-!
Times of day to the nanosecond. A leap second is kept as the second before it,
whose nanoseconds run on from one to two thousand million. It belongs to the end
of a minute, but nothing keeps it from following any other second. A difference
of two times counts such a second only when one of the times lies in it; moving
a time by a duration wraps around midnight and counts the leap second only when
the time starts inside it.
-/
namespace UnpaidWork

/-- Seconds since midnight and nanoseconds, which pass one second only inside a leap second. -/
structure TimeOfDay where
  second : Nat
  nano : Nat
  second_lt : second < 86400
  nano_lt : nano < 2000000000
  deriving DecidableEq

namespace TimeOfDay

@[ext] theorem ext {a b : TimeOfDay} (seconds : a.second = b.second) (nanos : a.nano = b.nano) :
    a = b := by
  cases a
  cases b
  simp_all

instance : Inhabited TimeOfDay := ⟨⟨0, 0, by decide, by decide⟩⟩

/-- The time lies inside a leap second. -/
def inLeapSecond (t : TimeOfDay) : Bool := 1000000000 ≤ t.nano

/-- A number that orders times: seconds first, then nanoseconds. -/
def rank (t : TimeOfDay) : Nat := t.second * 2000000000 + t.nano

theorem rank_inj {a b : TimeOfDay} : a.rank = b.rank ↔ a = b := by
  constructor
  · intro same
    have := a.nano_lt
    have := b.nano_lt
    simp only [rank] at same
    exact TimeOfDay.ext (by omega) (by omega)
  · rintro rfl
    rfl

instance : LE TimeOfDay := ⟨fun a b => a.rank ≤ b.rank⟩

instance : LT TimeOfDay := ⟨fun a b => a.rank < b.rank⟩

instance (a b : TimeOfDay) : Decidable (a ≤ b) := inferInstanceAs (Decidable (a.rank ≤ b.rank))

instance (a b : TimeOfDay) : Decidable (a < b) := inferInstanceAs (Decidable (a.rank < b.rank))

theorem le_iff {a b : TimeOfDay} : a ≤ b ↔ a.rank ≤ b.rank := Iff.rfl

theorem lt_iff {a b : TimeOfDay} : a < b ↔ a.rank < b.rank := Iff.rfl

/-- The nanoseconds from one time to a later or earlier one. A leap second
between them, which neither lies in, is not counted. -/
def nanosTo (a b : TimeOfDay) : Int :=
  let leapSeconds : Int :=
    if a.second < b.second then (if a.inLeapSecond then 1 else 0)
    else if b.second < a.second then (if b.inLeapSecond then -1 else 0)
    else 0
  ((b.second : Int) - a.second + leapSeconds) * 1000000000 + ((b.nano : Int) - a.nano)

theorem nanosTo_bounds (a b : TimeOfDay) :
    -86402000000000 ≤ nanosTo a b ∧ nanosTo a b ≤ 86402000000000 := by
  have := a.second_lt
  have := b.second_lt
  have := a.nano_lt
  have := b.nano_lt
  simp only [nanosTo]
  split
  · split <;> omega
  · split
    · split <;> omega
    · omega

/-- The length of time from one time of day to another of the same day. -/
def lengthTo (a b : TimeOfDay) : Duration :=
  ⟨nanosTo a b, by
    have := nanosTo_bounds a b
    simp only [Duration.limit]
    omega⟩

/-- A second count and nanosecond remainder as a time of day, wrapped around midnight. -/
def wrap (seconds nanos : Int) : TimeOfDay where
  second := ((seconds + nanos / 1000000000) % 86400).toNat
  nano := (nanos % 1000000000).toNat
  second_lt := by omega
  nano_lt := by omega

/-- The time of day a duration later, or earlier when it is negative. Inside a
leap second a shift that stays within it moves the nanoseconds alone; one that
leaves it forward or backward passes its end or its start. -/
def shift (t : TimeOfDay) (d : Duration) : TimeOfDay :=
  let seconds := d.wholeSeconds
  let nanos := d.subsecondNanos
  if 1000000000 ≤ t.nano then
    if after : seconds > 0 ∨ (nanos > 0 ∧ 2000000000 ≤ t.nano + nanos) then
      wrap (t.second + seconds) (t.nano - 1000000000 + nanos)
    else if seconds < 0 then
      wrap (t.second + 1 + seconds) (t.nano - 1000000000 + nanos)
    else
      { second := t.second
        nano := (t.nano + nanos).toNat
        second_lt := t.second_lt
        nano_lt := by have := t.nano_lt; omega }
  else wrap (t.second + seconds) (t.nano + nanos)

end TimeOfDay
end UnpaidWork
