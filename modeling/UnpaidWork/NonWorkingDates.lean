import UnpaidWork.Date

/-!
The dates on which nobody works. They are kept in ascending order without
repeats, so a walk to the next working day passes along the list once and ends
with it; it fails only when the calendar itself ends.
-/
namespace UnpaidWork

/-- A set of dates, in ascending order. -/
structure NonWorkingDates where
  dates : List Date
  ascending : dates.Pairwise (· < ·)
  deriving DecidableEq

namespace NonWorkingDates

/-- No dates: every day is a working day. -/
def empty : NonWorkingDates := ⟨[], .nil⟩

/-- A date put in its place in an ascending list, unless it is there. -/
def place (d : Date) : List Date → List Date
  | [] => [d]
  | x :: rest => if d < x then d :: x :: rest else if d = x then x :: rest else x :: place d rest

theorem mem_place {d e : Date} {dates : List Date} : e ∈ place d dates ↔ e = d ∨ e ∈ dates := by
  induction dates with
  | nil => simp [place]
  | cons x rest ih =>
    simp only [place]
    split
    · simp
    · split
      · rename_i same
        subst same
        simp
      · simp only [List.mem_cons, ih]
        constructor
        · rintro (rfl | rfl | inRest) <;> simp_all
        · rintro (rfl | rfl | inRest) <;> simp_all

theorem ascending_place (d : Date) {dates : List Date} (ascending : dates.Pairwise (· < ·)) :
    (place d dates).Pairwise (· < ·) := by
  induction dates with
  | nil => simp [place]
  | cons x rest ih =>
    obtain ⟨first, later⟩ := List.pairwise_cons.mp ascending
    simp only [place]
    split
    · rename_i before
      refine List.pairwise_cons.mpr ⟨fun e member => ?_, ascending⟩
      rcases List.mem_cons.mp member with rfl | inRest
      · exact before
      · have := first e inRest
        simp only [Date.lt_iff] at *
        omega
    · split
      · exact ascending
      · rename_i notBefore different
        refine List.pairwise_cons.mpr ⟨fun e member => ?_, ih later⟩
        rcases mem_place.mp member with rfl | inRest
        · have : e.number ≠ x.number := fun same => different (Date.ext same)
          simp only [Date.lt_iff] at *
          omega
        · exact first e inRest

/-- The set with one more date. -/
def insert (s : NonWorkingDates) (d : Date) : NonWorkingDates :=
  ⟨place d s.dates, ascending_place d s.ascending⟩

/-- The set with more dates. -/
def insertAll (s : NonWorkingDates) (dates : List Date) : NonWorkingDates :=
  dates.foldl insert s

/-- The set of the dates of a list. -/
def ofList (dates : List Date) : NonWorkingDates := empty.insertAll dates

instance : Membership Date NonWorkingDates := ⟨fun s d => d ∈ s.dates⟩

instance (s : NonWorkingDates) (d : Date) : Decidable (d ∈ s) :=
  inferInstanceAs (Decidable (d ∈ s.dates))

/-- A date is in the set after an insertion when it was before or is the new one. -/
theorem mem_insert {s : NonWorkingDates} {d e : Date} : e ∈ s.insert d ↔ e = d ∨ e ∈ s :=
  mem_place

/-- The date is not in the set. -/
def isWorkingDay (s : NonWorkingDates) (d : Date) : Bool := d ∉ s

/-- The first date from `d` on that is not in an ascending list. -/
def firstFree (d : Date) : List Date → Option Date
  | [] => some d
  | x :: rest =>
    if x < d then firstFree d rest
    else if x = d then
      match d.next? with
      | some next => firstFree next rest
      | none => none
    else some d

/-- The first working day on or after a date, unless the calendar ends before it. -/
def workingDayOnOrAfter? (s : NonWorkingDates) (d : Date) : Option Date := firstFree d s.dates

/-- The first working day after a date, unless the calendar ends before it. -/
def nextWorkingDay? (s : NonWorkingDates) (d : Date) : Option Date :=
  d.next?.bind s.workingDayOnOrAfter?

theorem le_firstFree {d found : Date} {dates : List Date} (free : firstFree d dates = some found) :
    d ≤ found := by
  induction dates generalizing d with
  | nil =>
    cases free
    simp [Date.le_iff]
  | cons x rest ih =>
    simp only [firstFree] at free
    split at free
    · exact ih free
    · split at free
      · split at free
        · rename_i next step
          have later := ih free
          have number := Date.next?_eq_some.mp step
          simp only [Date.le_iff] at *
          omega
        · cases free
      · cases free
        simp [Date.le_iff]

/-- The next working day is later, so fewer dates follow it. -/
theorem following_nextWorkingDay_lt {s : NonWorkingDates} {d found : Date}
    (step : s.nextWorkingDay? d = some found) : found.following < d.following := by
  obtain ⟨next, after, free⟩ := Option.bind_eq_some_iff.mp step
  have shorter := Date.following_next_lt after
  have later := le_firstFree free
  simp only [Date.following, Date.le_iff] at *
  omega

end NonWorkingDates
end UnpaidWork
