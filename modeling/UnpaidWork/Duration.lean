/-!
Lengths of time, exact to the nanosecond and of either sign. A duration lies
between plus and minus 2^63 - 1 milliseconds; the bound is part of the type, so
a sum or a difference is an answer or an `Overflow`, never a wrapped number.
Whole minutes, which the wire format and the log show, cut toward zero.
-/
namespace UnpaidWork

/-- Why a calculation on times had to stop. -/
inductive Overflow where
  /-- A sum of two durations left the range. -/
  | sum
  /-- A difference of two durations left the range. -/
  | difference
  /-- The end of a lease cannot be told on the clock. -/
  | leaseEnd
  deriving DecidableEq, Repr

/-- The text that reports the overflow. -/
def Overflow.message : Overflow → String
  | .sum => "`TimeDelta + TimeDelta` overflowed"
  | .difference => "`TimeDelta - TimeDelta` overflowed"
  | .leaseEnd => "overflow when adding duration to instant"

/-- The longest duration in either direction, in nanoseconds. -/
def Duration.limit : Int := 9223372036854775807000000

/-- A length of time in nanoseconds, within the limit on both sides. -/
structure Duration where
  nanos : Int
  bounded : -Duration.limit ≤ nanos ∧ nanos ≤ Duration.limit
  deriving DecidableEq

namespace Duration

@[ext] theorem ext {a b : Duration} (same : a.nanos = b.nanos) : a = b := by
  cases a
  cases b
  simpa using same

/-- No time at all. -/
def zero : Duration := ⟨0, by decide⟩

instance : Inhabited Duration := ⟨zero⟩

instance : LE Duration := ⟨fun a b => a.nanos ≤ b.nanos⟩

instance : LT Duration := ⟨fun a b => a.nanos < b.nanos⟩

instance (a b : Duration) : Decidable (a ≤ b) := inferInstanceAs (Decidable (a.nanos ≤ b.nanos))

instance (a b : Duration) : Decidable (a < b) := inferInstanceAs (Decidable (a.nanos < b.nanos))

theorem le_iff {a b : Duration} : a ≤ b ↔ a.nanos ≤ b.nanos := Iff.rfl

theorem lt_iff {a b : Duration} : a < b ↔ a.nanos < b.nanos := Iff.rfl

@[simp] theorem nanos_zero : zero.nanos = 0 := rfl

/-- The shorter of two durations. -/
def min (a b : Duration) : Duration := if a ≤ b then a else b

/-- The longer of two durations. -/
def max (a b : Duration) : Duration := if a ≤ b then b else a

theorem nanos_min (a b : Duration) : (min a b).nanos = Min.min a.nanos b.nanos := by
  unfold min
  split <;> simp_all only [le_iff] <;> omega

theorem nanos_max (a b : Duration) : (max a b).nanos = Max.max a.nanos b.nanos := by
  unfold max
  split <;> simp_all only [le_iff] <;> omega

/-- The duration of so many nanoseconds, when it is within the limit. -/
def ofNanos? (n : Int) : Option Duration :=
  if within : -limit ≤ n ∧ n ≤ limit then some ⟨n, within⟩ else none

/-- The duration of so many minutes, when it is within the limit. -/
def ofMinutes? (minutes : Int) : Option Duration := ofNanos? (minutes * 60000000000)

theorem ofNanos?_nanos (d : Duration) : ofNanos? d.nanos = some d := by
  simp [ofNanos?, d.bounded]

/-- The exact sum, or an overflow. -/
def plus (a b : Duration) : Except Overflow Duration :=
  match ofNanos? (a.nanos + b.nanos) with
  | some d => .ok d
  | none => .error .sum

/-- The exact difference, or an overflow. -/
def minus (a b : Duration) : Except Overflow Duration :=
  match ofNanos? (a.nanos - b.nanos) with
  | some d => .ok d
  | none => .error .difference

theorem ofNanos?_eq_some {n : Int} {d : Duration} : ofNanos? n = some d ↔ d.nanos = n := by
  constructor
  · intro found
    unfold ofNanos? at found
    split at found
    · cases found
      rfl
    · cases found
  · rintro rfl
    exact ofNanos?_nanos d

theorem plus_eq_ok {a b c : Duration} : a.plus b = .ok c ↔ c.nanos = a.nanos + b.nanos := by
  unfold plus
  rw [← ofNanos?_eq_some]
  split <;> simp_all

theorem minus_eq_ok {a b c : Duration} : a.minus b = .ok c ↔ c.nanos = a.nanos - b.nanos := by
  unfold minus
  rw [← ofNanos?_eq_some]
  split <;> simp_all

/-- The sum of a list of durations, added up from zero in the order of the list. -/
def total (lengths : List Duration) : Except Overflow Duration :=
  lengths.foldlM plus zero

/-- The whole seconds of a duration, cut toward zero. -/
def wholeSeconds (d : Duration) : Int := d.nanos.tdiv 1000000000

/-- The part below one second, with the sign of the duration. -/
def subsecondNanos (d : Duration) : Int := d.nanos.tmod 1000000000

/-- The whole minutes of a duration, cut toward zero. -/
def wholeMinutes (d : Duration) : Int := d.nanos.tdiv 60000000000

/-- A duration is made of its whole seconds and the part below one second. -/
theorem wholeSeconds_mul_add (d : Duration) :
    d.wholeSeconds * 1000000000 + d.subsecondNanos = d.nanos := by
  have split := Int.tmod_add_mul_tdiv d.nanos 1000000000
  simp only [wholeSeconds, subsecondNanos]
  omega

end Duration
end UnpaidWork
