import UnpaidWork.Occurrence
import UnpaidWork.Proofs.WorkingDays

/-!
On which dates an allocation occurs, said without computing a next one, and
that the computed one is the first of them. Weekdays recur by the remainder of
the day number; a fortnightly allocation counts from the first of its weekdays
on or after its start date, whatever date the search starts from. The end date
is looked at for the first candidate only, which is enough, since no later date
can lie within it either.
-/
namespace UnpaidWork

namespace Date
variable {d e found : Date} {w : Weekday}

theorem weekday_eq_iff : d.weekday = w ↔ d.number % 7 = w.index := by
  rw [← Weekday.index_inj, ← index_weekday]
  omega

/-- The computed date is the first one with the weekday. -/
theorem onOrAfter?_eq_some :
    d.onOrAfter? w = some found ↔ FirstFrom (fun e => e.weekday = w) d found := by
  have week := w.index_lt
  have own := d.weekday.index_lt
  have remainder := d.index_weekday
  constructor
  · intro computed
    have number := later?_eq_some.mp computed
    refine ⟨?_, ?_, fun e order same => ?_⟩
    · rw [le_iff]
      omega
    · rw [weekday_eq_iff]
      omega
    · rw [weekday_eq_iff] at same
      rw [le_iff] at order ⊢
      omega
  · intro first
    have same := weekday_eq_iff.mp first.isFit
    have reached := first.reached
    rw [le_iff] at reached
    obtain ⟨c, computed⟩ := exists_later? (a := d) (b := found)
      (n := (7 + w.index - d.weekday.index) % 7) (by omega)
    have number := later?_eq_some.mp computed
    have least := first.least c (by rw [le_iff]; omega) (by rw [weekday_eq_iff]; omega)
    rw [le_iff] at least
    rw [onOrAfter?, computed, Option.some.injEq]
    exact Date.ext (by omega)

theorem exists_onOrAfter (order : d ≤ e) (same : e.weekday = w) :
    ∃ found, d.onOrAfter? w = some found := by
  have week := w.index_lt
  have own := d.weekday.index_lt
  have remainder := d.index_weekday
  rw [weekday_eq_iff] at same
  rw [le_iff] at order
  exact exists_later? (b := e) (by omega)

theorem max_le_iff {a b : Date} : a.max b ≤ d ↔ a ≤ d ∧ b ≤ d := by
  unfold max
  split
  · rename_i order
    exact ⟨fun within => ⟨le_trans order within, within⟩, And.right⟩
  · rename_i order
    exact ⟨fun within => ⟨within, le_trans (Int.le_of_lt (not_le.mp order)) within⟩, And.left⟩

end Date

namespace Allocation
open Date

/-- The first date of the weekday from the start date on, by which fortnights are counted. -/
def Begins (a : Allocation) (first : Date) : Prop :=
  FirstFrom (fun d => d.weekday = a.weekday) a.startDate first

/-- The allocation recurs on the date, its end date apart. -/
structure Recurs (a : Allocation) (d : Date) : Prop where
  onWeekday : d.weekday = a.weekday
  started : a.startDate ≤ d
  fortnights : a.frequency = .fortnightly → ∃ first, a.Begins first ∧ 14 ∣ first.daysTo d

/-- The allocation occurs on the date. -/
structure OccursOn (a : Allocation) (d : Date) : Prop where
  recurs : a.Recurs d
  notEnded : ∀ last, a.endDate = some last → d ≤ last

variable {a : Allocation} {d e found : Date} {s : Schedule}

theorem firstDate?_eq_some : a.firstDate? = some found ↔ a.Begins found := onOrAfter?_eq_some

/-- A number of days rounded up to whole fortnights. -/
theorem wholeFortnights_spec (days : Int) :
    14 ∣ wholeFortnights days ∧ days ≤ wholeFortnights days ∧ wholeFortnights days < days + 14 := by
  unfold wholeFortnights
  omega

/-- The computed date is the first one that is whole fortnights after the first date. -/
theorem nextFortnightly?_eq_some {earliest first : Date} (begins : a.Begins first) :
    a.nextFortnightly? earliest = some found ↔
      FirstFrom (fun d => first ≤ d ∧ 14 ∣ first.daysTo d) earliest found := by
  simp only [nextFortnightly?, firstDate?_eq_some.mpr begins]
  split
  · rename_i early
    have isFirst : FirstFrom (fun d => first ≤ d ∧ 14 ∣ first.daysTo d) earliest first :=
      ⟨early, ⟨Date.le_refl first, by simp [daysTo]⟩, fun e _ fit => fit.1⟩
    rw [Option.some.injEq]
    exact ⟨fun same => same ▸ isFirst, isFirst.unique⟩
  · rename_i late
    have late := Date.not_le.mp late
    have rounded := wholeFortnights_spec (first.daysTo earliest)
    simp only [daysTo, lt_iff] at late rounded
    rw [later?_eq_some]
    constructor
    · intro number
      simp only [daysTo] at number
      refine ⟨?_, ⟨?_, ?_⟩, fun e order fit => ?_⟩
      · rw [le_iff]
        omega
      · rw [le_iff]
        omega
      · simp only [daysTo]
        omega
      · simp only [daysTo, le_iff] at fit order ⊢
        omega
    · rintro ⟨reached, fit, least⟩
      simp only [daysTo, le_iff] at fit reached ⊢
      obtain ⟨c, computed⟩ := exists_later? (a := first) (b := found)
        (n := (wholeFortnights (earliest.number - first.number)).toNat) (by omega)
      have number := later?_eq_some.mp computed
      have := least c (by rw [le_iff]; omega)
        ⟨by rw [le_iff]; omega, by simp only [daysTo]; omega⟩
      rw [le_iff] at this
      omega

theorem Recurs.after_first {first : Date} (recurs : a.Recurs d) (begins : a.Begins first) :
    first ≤ d := begins.least d recurs.started recurs.onWeekday

theorem recurs_iff_of_begins {first : Date} (often : a.frequency = .fortnightly)
    (begins : a.Begins first) : a.Recurs d ↔ first ≤ d ∧ 14 ∣ first.daysTo d := by
  constructor
  · intro recurs
    obtain ⟨other, begins', whole⟩ := recurs.fortnights often
    exact ⟨recurs.after_first begins, begins.unique begins' ▸ whole⟩
  · rintro ⟨order, whole⟩
    refine ⟨?_, Date.le_trans begins.reached order, fun _ => ⟨first, begins, whole⟩⟩
    have weekday := weekday_eq_iff.mp begins.isFit
    simp only [daysTo] at whole
    rw [weekday_eq_iff]
    omega

/-- The computed date is the first one on which the allocation recurs. -/
theorem nextDate?_eq_some : a.nextDate? d = some found ↔ FirstFrom a.Recurs d found := by
  have plain (often : a.frequency ≠ .fortnightly) :
      (d.max a.startDate).onOrAfter? a.weekday = some found ↔ FirstFrom a.Recurs d found := by
    refine onOrAfter?_eq_some.trans (FirstFrom.congr fun e => ?_)
    rw [max_le_iff]
    constructor
    · rintro ⟨⟨order, started⟩, onWeekday⟩
      exact ⟨order, onWeekday, started, fun other => absurd other often⟩
    · rintro ⟨order, recurs⟩
      exact ⟨⟨order, recurs.started⟩, recurs.onWeekday⟩
  unfold nextDate?
  cases often : a.frequency with
  | once => exact plain (by simp [often])
  | weekly => exact plain (by simp [often])
  | fortnightly =>
    cases start : a.firstDate? with
    | none =>
      simp only [nextFortnightly?, start]
      constructor
      · rintro ⟨⟩
      · intro first
        obtain ⟨begin, begins, -⟩ := first.isFit.fortnights often
        rw [firstDate?_eq_some.mpr begins] at start
        cases start
    | some first =>
      have begins := firstDate?_eq_some.mp start
      refine (nextFortnightly?_eq_some begins).trans (FirstFrom.congr fun e => ?_)
      rw [max_le_iff, recurs_iff_of_begins often begins]
      constructor
      · rintro ⟨⟨order, -⟩, fit⟩
        exact ⟨order, fit⟩
      · rintro ⟨order, fit⟩
        exact ⟨⟨order, Date.le_trans begins.reached fit.1⟩, fit⟩

/-- Whatever date the allocation recurs on, the computed date is no later. -/
theorem exists_nextDate (order : d ≤ e) (recurs : a.Recurs e) :
    ∃ found, a.nextDate? d = some found := by
  have plain : ∃ found, (d.max a.startDate).onOrAfter? a.weekday = some found :=
    exists_onOrAfter (max_le_iff.mpr ⟨order, recurs.started⟩) recurs.onWeekday
  unfold nextDate?
  cases often : a.frequency with
  | once => exact plain
  | weekly => exact plain
  | fortnightly =>
    obtain ⟨first, begins, whole⟩ := recurs.fortnights often
    simp only [nextFortnightly?, firstDate?_eq_some.mpr begins]
    split
    · exact ⟨first, rfl⟩
    · rename_i late
      have rounded := wholeFortnights_spec (first.daysTo (d.max a.startDate))
      have within := max_le_iff.mpr ⟨order, recurs.started⟩
      simp only [daysTo, le_iff] at late rounded whole within ⊢
      exact exists_later? (b := e) (by omega)

theorem hasEndedBefore_eq_false : a.hasEndedBefore d = false ↔
    ∀ last, a.endDate = some last → d ≤ last := by
  unfold hasEndedBefore
  cases a.endDate with
  | none => simp
  | some last => simp [Date.not_lt]

/-- There is a next possible date as long as an occurrence lies ahead, unless the
allocation can be used once and is used. -/
theorem exists_nextPossibleDate (unused : ¬ (a.frequency = .once ∧ s.uses a.id)) (order : d ≤ e)
    (occurs : a.OccursOn e) : ∃ found, a.nextPossibleDate? d s = some found := by
  obtain ⟨found, next⟩ := exists_nextDate order occurs.recurs
  have early := (nextDate?_eq_some.mp next).least e order occurs.recurs
  have notEnded := hasEndedBefore_eq_false.mpr fun last ends =>
    Date.le_trans early (occurs.notEnded last ends)
  exact ⟨found, by simp [nextPossibleDate?, unused, next, notEnded]⟩

/-- The next possible date is the first occurrence. -/
theorem nextPossibleDate?_eq_some : a.nextPossibleDate? d s = some found ↔
    ¬ (a.frequency = .once ∧ s.uses a.id) ∧ FirstFrom a.OccursOn d found := by
  have computes {c : Date} (next : a.nextPossibleDate? d s = some c) :
      ¬ (a.frequency = .once ∧ s.uses a.id) ∧ FirstFrom a.OccursOn d c := by
    unfold nextPossibleDate? at next
    split at next
    · cases next
    · rename_i unused
      split at next
      · rename_i candidate computed
        split at next
        · cases next
        · rename_i notEnded
          cases next
          have first := nextDate?_eq_some.mp computed
          have notEnded := hasEndedBefore_eq_false.mp (Bool.eq_false_iff.mpr notEnded)
          exact ⟨unused, first.reached, ⟨first.isFit, notEnded⟩, fun e order occurs =>
            first.least e order occurs.recurs⟩
      · cases next
  constructor
  · exact computes
  · rintro ⟨unused, first⟩
    obtain ⟨other, next⟩ := exists_nextPossibleDate unused first.reached first.isFit
    rw [next, (computes next).2.unique first]

/-- The allocation can be used exactly on its occurrences, if it is not used up. -/
theorem isPossibleOn_iff : a.isPossibleOn d s ↔
    ¬ (a.frequency = .once ∧ s.uses a.id) ∧ a.OccursOn d := by
  simp only [isPossibleOn, decide_eq_true_eq, nextPossibleDate?_eq_some]
  refine and_congr_right fun _ => ⟨FirstFrom.isFit, fun occurs => ?_⟩
  exact ⟨Date.le_refl d, occurs, fun e order _ => order⟩

/-- The allocation is to be used once, and an appointment of the schedule comes from it. -/
def UsedUp (a : Allocation) (s : Schedule) : Prop :=
  a.frequency = .once ∧ ((∃ q ∈ s.requiredAppointments, q.allocationId = a.id) ∨
    ∃ b ∈ s.forcedRetentions, b.allocationId = some a.id)

theorem usedUp_iff : a.UsedUp s ↔ a.frequency = .once ∧ s.uses a.id := by
  simp [UsedUp, Schedule.uses]

/-- There is no next possible date only if no occurrence lies ahead to the end of the calendar. -/
theorem nextPossibleDate?_eq_none (unused : ¬ a.UsedUp s) :
    a.nextPossibleDate? d s = none ↔ ∀ e, d ≤ e → ¬ a.OccursOn e := by
  rw [usedUp_iff] at unused
  constructor
  · intro none e order occurs
    obtain ⟨found, next⟩ := exists_nextPossibleDate unused order occurs
    rw [none] at next
    cases next
  · intro never
    refine Option.eq_none_iff_forall_ne_some.mpr fun found next => ?_
    obtain ⟨-, first⟩ := nextPossibleDate?_eq_some.mp next
    exact never found first.reached first.isFit

/-- Whatever the allocation, the next possible date is its least occurrence from the
date on, and none if there is none or if the allocation is used up. So it can be used
on the very date exactly if this is an occurrence and the allocation is not used up. -/
theorem next_possible_date_is_the_first_occurrence (a : Allocation) (d : Date) (s : Schedule) :
    (a.UsedUp s → a.nextPossibleDate? d s = none) ∧
    (¬ a.UsedUp s →
      (∀ found, a.nextPossibleDate? d s = some found ↔ FirstFrom a.OccursOn d found) ∧
      (a.nextPossibleDate? d s = none ↔ ∀ e, d ≤ e → ¬ a.OccursOn e)) ∧
    (a.isPossibleOn d s ↔ ¬ a.UsedUp s ∧ a.OccursOn d) := by
  refine ⟨fun used => ?_, fun unused => ⟨fun found => ?_, nextPossibleDate?_eq_none unused⟩, ?_⟩
  · rw [nextPossibleDate?, if_pos (usedUp_iff.mp used)]
  · rw [nextPossibleDate?_eq_some, ← usedUp_iff, and_iff_right unused]
  · rw [isPossibleOn_iff, ← usedUp_iff]

end Allocation
end UnpaidWork
