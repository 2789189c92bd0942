import UnpaidWork.NonWorkingDates

/-!
Which day a search through the calendar finds. The list of non-working dates is
passed along once, and still the day found is the least working day from the
given one on; the search finds none only when every date to the end of the
calendar is a non-working one.
-/
namespace UnpaidWork

namespace Date
variable {a b c : Date}

theorem le_refl (a : Date) : a ≤ a := Int.le_refl _

theorem le_trans (first : a ≤ b) (second : b ≤ c) : a ≤ c := Int.le_trans first second

theorem le_antisymm (first : a ≤ b) (second : b ≤ a) : a = b :=
  Date.ext (Int.le_antisymm first second)

theorem not_le : ¬ a ≤ b ↔ b < a := Int.not_le

theorem not_lt : ¬ a < b ↔ b ≤ a := Int.not_lt

/-- A date so many days later exists when some date lies at least as far ahead. -/
theorem exists_later? {n : Nat} (room : a.number + n ≤ b.number) : ∃ c, a.later? n = some c := by
  have := a.inCalendar
  have := b.inCalendar
  exact ⟨⟨a.number + n, by omega⟩, later?_eq_some.mpr rfl⟩

/-- The following date is the least later one. -/
theorem next?_le_iff (step : a.next? = some b) : b ≤ c ↔ a < c := by
  have := next?_eq_some.mp step
  rw [lt_iff, le_iff]
  omega

/-- Only the last date has none after it. -/
theorem le_of_next?_eq_none (ended : a.next? = none) (b : Date) : b ≤ a := by
  refine not_lt.mp fun order => ?_
  rw [lt_iff] at order
  obtain ⟨c, step⟩ := exists_later? (a := a) (b := b) (n := 1) (by omega)
  rw [next?, step] at ended
  cases ended

/-- `found` is the least date from `start` on that is `fit`. -/
structure FirstFrom (fit : Date → Prop) (start found : Date) : Prop where
  reached : start ≤ found
  isFit : fit found
  least : ∀ e, start ≤ e → fit e → found ≤ e

theorem FirstFrom.unique {fit : Date → Prop} (one : FirstFrom fit a b) (two : FirstFrom fit a c) :
    b = c :=
  le_antisymm (one.least c two.reached two.isFit) (two.least b one.reached one.isFit)

/-- The first date depends on which dates are in question only. -/
theorem FirstFrom.congr {fit other : Date → Prop}
    (same : ∀ e, a ≤ e ∧ fit e ↔ b ≤ e ∧ other e) : FirstFrom fit a c ↔ FirstFrom other b c := by
  have transfer {fit other : Date → Prop} {a b : Date}
      (same : ∀ e, a ≤ e ∧ fit e ↔ b ≤ e ∧ other e) (first : FirstFrom fit a c) :
      FirstFrom other b c := by
    obtain ⟨reached, isFit⟩ := (same c).mp ⟨first.reached, first.isFit⟩
    refine ⟨reached, isFit, fun e order fits => ?_⟩
    obtain ⟨order, fits⟩ := (same e).mpr ⟨order, fits⟩
    exact first.least e order fits
  exact ⟨transfer same, transfer fun e => (same e).symm⟩

/-- The first date stays the first for every start up to it. -/
theorem FirstFrom.start_later {fit : Date → Prop} (first : FirstFrom fit a c) (later : a ≤ b)
    (within : b ≤ c) : FirstFrom fit b c :=
  ⟨within, first.isFit, fun e order isFit => first.least e (le_trans later order) isFit⟩

end Date

namespace NonWorkingDates
open Date

variable {s : NonWorkingDates} {d e found : Date} {dates : List Date}

/-- Passing along the rest of an ascending list finds the least date not in it. -/
theorem firstFrom_of_firstFree (ascending : dates.Pairwise (· < ·))
    (free : firstFree d dates = some found) : FirstFrom (· ∉ dates) d found := by
  induction dates generalizing d with
  | nil =>
    cases free
    exact ⟨Date.le_refl _, List.not_mem_nil, fun e order _ => order⟩
  | cons x rest ih =>
    obtain ⟨first, later⟩ := List.pairwise_cons.mp ascending
    simp only [firstFree] at free
    split at free
    · rename_i passed
      obtain ⟨reached, out, least⟩ := ih later free
      refine ⟨reached, fun member => ?_, fun e order fit => least e order fun inRest =>
        fit (List.mem_cons_of_mem x inRest)⟩
      rcases List.mem_cons.mp member with rfl | inRest
      · exact Date.not_le.mpr passed reached
      · exact out inRest
    · rename_i notPassed
      split at free
      · rename_i same
        subst same
        split at free
        · rename_i next step
          obtain ⟨reached, out, least⟩ := ih later free
          have after : x < found := (next?_le_iff step).mp reached
          refine ⟨Int.le_of_lt after, fun member => ?_, fun e order fit => ?_⟩
          · rcases List.mem_cons.mp member with rfl | inRest
            · exact Int.lt_irrefl _ after
            · exact out inRest
          · have others : e ∉ rest := fun inRest => fit (List.mem_cons_of_mem x inRest)
            refine least e ((next?_le_iff step).mpr (Date.not_le.mp fun back => fit ?_)) others
            exact Date.le_antisymm back order ▸ List.mem_cons_self
        · cases free
      · rename_i different
        cases free
        refine ⟨Date.le_refl _, fun member => ?_, fun e order _ => order⟩
        rcases List.mem_cons.mp member with rfl | inRest
        · exact different rfl
        · exact notPassed (first _ inRest)

/-- The search fails only where the list holds all dates to the end of the calendar. -/
theorem mem_of_firstFree_eq_none (failed : firstFree d dates = none) (order : d ≤ e) :
    e ∈ dates := by
  induction dates generalizing d with
  | nil => cases failed
  | cons x rest ih =>
    simp only [firstFree] at failed
    split at failed
    · exact List.mem_cons_of_mem x (ih failed order)
    · split at failed
      · rename_i same
        subst same
        split at failed
        · rename_i next step
          by_cases back : e ≤ x
          · exact Date.le_antisymm back order ▸ List.mem_cons_self
          · exact List.mem_cons_of_mem x (ih failed ((next?_le_iff step).mpr (Date.not_le.mp back)))
        · rename_i ended
          exact Date.le_antisymm (le_of_next?_eq_none ended e) order ▸ List.mem_cons_self
      · cases failed

/-- Whatever working day lies ahead, the search ends at it or earlier. -/
theorem exists_workingDayOnOrAfter (order : d ≤ e) (working : e ∉ s) :
    ∃ found, s.workingDayOnOrAfter? d = some found ∧ FirstFrom (· ∉ s) d found := by
  cases search : s.workingDayOnOrAfter? d with
  | none => exact absurd (mem_of_firstFree_eq_none search order) working
  | some found => exact ⟨found, rfl, firstFrom_of_firstFree s.ascending search⟩

/-- The day found is the least working day from the date on. -/
theorem workingDayOnOrAfter?_eq_some :
    s.workingDayOnOrAfter? d = some found ↔ FirstFrom (· ∉ s) d found := by
  constructor
  · exact firstFrom_of_firstFree s.ascending
  · intro first
    obtain ⟨other, search, isFirst⟩ := exists_workingDayOnOrAfter first.reached first.isFit
    rw [search, isFirst.unique first]

/-- A search that starts later, but not after the day found, finds the same day. -/
theorem workingDayOnOrAfter?_of_le (search : s.workingDayOnOrAfter? d = some found)
    (later : d ≤ e) (within : e ≤ found) : s.workingDayOnOrAfter? e = some found :=
  workingDayOnOrAfter?_eq_some.mpr
    ((workingDayOnOrAfter?_eq_some.mp search).start_later later within)

/-- The next working day is a search from the following date on. -/
theorem nextWorkingDay?_eq_some : s.nextWorkingDay? d = some found ↔
    ∃ next, d.next? = some next ∧ FirstFrom (· ∉ s) next found := by
  simp only [nextWorkingDay?, Option.bind_eq_some_iff, workingDayOnOrAfter?_eq_some]

theorem nextWorkingDay?_working (step : s.nextWorkingDay? d = some found) : found ∉ s := by
  obtain ⟨next, -, first⟩ := nextWorkingDay?_eq_some.mp step
  exact first.isFit

/-- No working day lies between a day and the next one. -/
theorem nextWorkingDay?_le (step : s.nextWorkingDay? d = some found) (order : d < e)
    (working : e ∉ s) : found ≤ e := by
  obtain ⟨next, after, first⟩ := nextWorkingDay?_eq_some.mp step
  exact first.least e ((next?_le_iff after).mpr order) working

/-- There is a next working day as soon as some working day is later. -/
theorem exists_nextWorkingDay (order : d < e) (working : e ∉ s) :
    ∃ found, s.nextWorkingDay? d = some found := by
  cases after : d.next? with
  | none => exact absurd (le_of_next?_eq_none after e) (Date.not_le.mpr order)
  | some next =>
    obtain ⟨found, -, first⟩ :=
      exists_workingDayOnOrAfter ((next?_le_iff after).mpr order) working
    exact ⟨found, nextWorkingDay?_eq_some.mpr ⟨next, after, first⟩⟩

end NonWorkingDates
end UnpaidWork
