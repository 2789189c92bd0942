import UnpaidWork.Request
import UnpaidWork.Schedule

/-!
On which dates an allocation can be used. A weekly one recurs on its weekday
from its start date on, a fortnightly one every fourteen days from the first
such date, and one to be used once on any such date as long as the schedule
does not use it yet. The next date is computed, not searched for.
-/
namespace UnpaidWork.Allocation

/-- The first date of the allocation's weekday from its start date on. -/
def firstDate? (a : Allocation) : Option Date := a.startDate.onOrAfter? a.weekday

/-- The days until a multiple of fourteen days has passed. -/
def wholeFortnights (days : Int) : Int := (days + 13) / 14 * 14

/-- The first date from `earliest` on that is whole fortnights after the first date. -/
def nextFortnightly? (a : Allocation) (earliest : Date) : Option Date :=
  match a.firstDate? with
  | none => none
  | some first =>
    if earliest ≤ first then some first
    else first.later? (wholeFortnights (first.daysTo earliest)).toNat

/-- The first date of the allocation on or after a date, its end date apart. -/
def nextDate? (a : Allocation) (d : Date) : Option Date :=
  let earliest := d.max a.startDate
  match a.frequency with
  | .once | .weekly => earliest.onOrAfter? a.weekday
  | .fortnightly => a.nextFortnightly? earliest

/-- The next date on or after `d` on which the allocation can be used, given
what the schedule uses already. -/
def nextPossibleDate? (a : Allocation) (d : Date) (s : Schedule) : Option Date :=
  if a.frequency = .once ∧ s.uses a.id then none
  else
    match a.nextDate? d with
    | some candidate => if a.hasEndedBefore candidate then none else some candidate
    | none => none

/-- The allocation can be used on that very date. -/
def isPossibleOn (a : Allocation) (d : Date) (s : Schedule) : Bool :=
  a.nextPossibleDate? d s = some d

end UnpaidWork.Allocation
