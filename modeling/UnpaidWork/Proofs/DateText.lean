import UnpaidWork.Date.Text
import UnpaidWork.Proofs.Decimals

/-!
Every date of the calendar is read back from its text. Taking a date apart is
undone by counting the days before its year and its month, because the days of
the year before it are fewer than its year has; and its text is taken apart at
the hyphens, of which one may also be the sign of the year.
-/
namespace UnpaidWork
open Text

namespace Civil

/-- Days of the year as so many whole months and a day of the next one. -/
structure InMonth (lengths : List Nat) (days : Nat) (before : List Nat) (length : Nat)
    (after : List Nat) (day : Nat) : Prop where
  split : lengths = before ++ length :: after
  days : days = before.sum + (day - 1)
  first : 1 ≤ day
  last : day ≤ length

/-- The walk through the months ends in the month that holds the day. -/
theorem monthDay_eq {lengths : List Nat} {days : Nat} (within : days < lengths.sum)
    (month : Nat) : ∃ before length after day,
      monthDay month lengths days = (month + before.length, day) ∧
        InMonth lengths days before length after day := by
  induction lengths generalizing month days with
  | nil => simp at within
  | cons length rest ih =>
    rw [monthDay]
    split
    · rename_i here
      exact ⟨[], length, rest, days + 1, rfl, rfl, by simp, by omega, here⟩
    · rename_i later
      have shorter : days - length < rest.sum := by
        rw [List.sum_cons] at within
        omega
      obtain ⟨before, own, after, day, walked, inMonth⟩ := ih shorter (month + 1)
      refine ⟨length :: before, own, after, day, ?_, ?_, ?_, inMonth.first, inMonth.last⟩
      · rw [walked, List.length_cons, Nat.add_assoc, Nat.add_comm 1]
      · rw [inMonth.split, List.cons_append]
      · have days := inMonth.days
        rw [List.sum_cons]
        omega

/-- A year has as many days as its months. -/
theorem sum_monthLengths (leap : Bool) :
    (monthLengths leap).sum = if leap then 366 else 365 := by
  cases leap <;> rfl

theorem isLeapYear_iff {year : Int} :
    isLeapYear year = true ↔ year % 4 = 0 ∧ (year % 100 ≠ 0 ∨ year % 400 = 0) := by
  simp [isLeapYear]

/-- The days of the year before a date are fewer than the year has. -/
theorem yearAndDays_bounds (number : Int) : 0 ≤ (yearAndDays number).2 ∧
    (yearAndDays number).2 < if isLeapYear (yearAndDays number).1 then 366 else 365 := by
  simp only [yearAndDays, isLeapYear_iff]
  generalize cycle : number / 146097 = cycles
  generalize within : number % 146097 = inFourHundred
  generalize hundred : Min.min (inFourHundred / 36524) 3 = hundreds
  generalize four : (inFourHundred - hundreds * 36524) / 1461 = fours
  generalize rest : (inFourHundred - hundreds * 36524) % 1461 = inFour
  generalize single : Min.min (inFour / 365) 3 = years
  have few : 0 ≤ hundreds ∧ hundreds ≤ 3 ∧ 0 ≤ fours ∧ fours ≤ 24 ∧ 0 ≤ years ∧ years ≤ 3 := by
    omega
  refine ⟨by omega, ?_⟩
  split
  · omega
  · rename_i common
    -- A day too many is the last of four years, and these end in a leap year
    -- unless they are the last of a hundred.
    omega

/-- What a date is taken apart into: a year, a month after some others of this
year, and a day of this month. -/
structure Apart (d : Date) (c : Civil) (days : Nat) (before : List Nat) (length : Nat)
    (after : List Nat) : Prop where
  number : daysBeforeYear c.year + days = d.number
  month : c.month = before.length + 1
  inMonth : InMonth (monthLengths (isLeapYear c.year)) days before length after c.day

theorem ofDate_apart (d : Date) :
    ∃ days before length after, Apart d (ofDate d) days before length after := by
  have total := daysBeforeYear_yearAndDays d.number
  have bounds := yearAndDays_bounds d.number
  unfold ofDate
  generalize yearAndDays d.number = found at total bounds ⊢
  obtain ⟨year, days⟩ := found
  dsimp only at total bounds ⊢
  have within : days.toNat < (monthLengths (isLeapYear year)).sum := by
    rw [sum_monthLengths]
    split at bounds
    · rename_i leap
      rw [if_pos leap]
      omega
    · rename_i common
      rw [if_neg common]
      omega
  obtain ⟨before, length, after, day, walked, inMonth⟩ := monthDay_eq within 1
  refine ⟨days.toNat, before, length, after, ?_⟩
  rw [walked]
  exact ⟨by dsimp only; omega, Nat.add_comm 1 _, inMonth⟩

/-- A date taken apart can be put together again. -/
theorem toDate?_ofDate (d : Date) : (ofDate d).toDate? = some d := by
  obtain ⟨days, before, length, after, apart⟩ := ofDate_apart d
  have month : (ofDate d).month - 1 = before.length := by rw [apart.month, Nat.add_sub_cancel]
  have own : (monthLengths (isLeapYear (ofDate d).year))[before.length]? = some length := by
    simp [apart.inMonth.split]
  have earlier : daysBeforeMonth (isLeapYear (ofDate d).year) (ofDate d).month = before.sum := by
    rw [daysBeforeMonth, month, apart.inMonth.split, List.take_left, List.sum_eq_foldl]
  have number := apart.number
  have days := apart.inMonth.days
  have first := apart.inMonth.first
  simp only [toDate?, month, own, earlier]
  rw [if_pos ⟨by rw [apart.month]; omega, first, apart.inMonth.last⟩, Date.ofNumber?_eq_some]
  omega

theorem monthLengths_le (leap : Bool) : ∀ length ∈ monthLengths leap, length ≤ 31 := by
  cases leap <;> decide

/-- The month of a date is one of twelve, and its day one of thirty-one at most. -/
theorem ofDate_bounds (d : Date) : 1 ≤ (ofDate d).month ∧ (ofDate d).month ≤ 12 ∧
    1 ≤ (ofDate d).day ∧ (ofDate d).day ≤ 31 := by
  obtain ⟨days, before, length, after, apart⟩ := ofDate_apart d
  have few : (monthLengths (isLeapYear (ofDate d).year)).length = 12 := rfl
  have short : length ≤ 31 := 
    monthLengths_le (isLeapYear (ofDate d).year) length (by simp [apart.inMonth.split])
  rw [apart.inMonth.split, List.length_append, List.length_cons] at few
  have month := apart.month
  have first := apart.inMonth.first
  have last := apart.inMonth.last
  omega

/-- The year of a date is at most some hundred thousands from the year 0. -/
theorem year_bounds (d : Date) : -300000 ≤ (ofDate d).year ∧ (ofDate d).year ≤ 300000 := by
  have calendar := d.inCalendar
  simp only [Date.firstNumber, Date.lastNumber] at calendar
  simp only [ofDate, yearAndDays]
  omega

/-! Years -/

section Years
variable {run rest : List Char}

/-- The years that a text can name are far beyond the calendar. -/
def Readable (year : Int) : Prop := -2147483648 ≤ year ∧ year ≤ 2147483647

theorem scanYear_minus (digits : Digits run) (ends : NoDigitFirst rest)
    (readable : Readable (-digitsValue run)) :
    scanYear ('-' :: (run ++ rest)) = .ok (-digitsValue run, rest) := by
  have fits : run.length ≤ (run ++ rest).length := by simp
  rw [scanYear, skipBlanks_cons rfl]
  split
  · rename_i after sign
    cases sign
    rw [digits.scan fits (.inr ends)]
    exact if_pos readable
  · rename_i sign
    cases sign
  · rename_i noMinus noPlus
    exact absurd rfl (noMinus _)

theorem scanYear_plus (digits : Digits run) (ends : NoDigitFirst rest)
    (readable : Readable (digitsValue run)) :
    scanYear ('+' :: (run ++ rest)) = .ok ((digitsValue run : Int), rest) := by
  have fits : run.length ≤ (run ++ rest).length := by simp
  rw [scanYear, skipBlanks_cons rfl]
  split
  · rename_i sign
    cases sign
  · rename_i after sign
    cases sign
    rw [digits.scan fits (.inr ends)]
    exact if_pos readable
  · rename_i noMinus noPlus
    exact absurd rfl (noPlus _)

theorem scanYear_plain (digits : Digits run) (four : run.length = 4)
    (readable : Readable (digitsValue run)) :
    scanYear (run ++ rest) = .ok ((digitsValue run : Int), rest) := by
  have scanned : scanDigits 4 (run ++ rest) = .ok (run, rest) :=
    digits.scan (by omega) (.inl four.symm)
  rw [scanYear, digits.skipBlanks_append]
  obtain ⟨c, more, rfl, first⟩ := digits.exists_cons
  rw [List.cons_append] at scanned ⊢
  split
  · rename_i sign
    cases sign
    cases first
  · rename_i sign
    cases sign
    cases first
  · rw [scanned]
    exact if_pos readable

/-- A year of the calendar is read back from its text, up to the hyphen after it. -/
theorem scanYear_yearText {year : Int} (readable : Readable year) (rest : List Char) :
    scanYear (yearText year ++ '-' :: rest) = .ok (year, '-' :: rest) := by
  have ends : NoDigitFirst ('-' :: rest) := noDigitFirst_cons.mpr rfl
  unfold yearText
  split
  · rename_i few
    have value : ((digitsValue (padded 4 year.toNat) : Nat) : Int) = year := by
      rw [digitsValue_padded]
      omega
    have length : (padded 4 year.toNat).length = 4 := length_padded (by decide) (by omega)
    rw [scanYear_plain (digits_padded _ _) length (by rwa [value]), value]
  · split
    · have value : -((digitsValue (padded 4 year.natAbs) : Nat) : Int) = year := by
        rw [digitsValue_padded]
        omega
      rw [List.cons_append, scanYear_minus (digits_padded _ _) ends (by rwa [value]), value]
    · have value : ((digitsValue (padded 4 year.natAbs) : Nat) : Int) = year := by
        rw [digitsValue_padded]
        omega
      rw [List.cons_append, scanYear_plus (digits_padded _ _) ends (by rwa [value]), value]

end Years

end Civil

namespace Date

/-- Every date of the calendar is read back from its text. -/
theorem ofText_text (d : Date) : ofText d.text = .ok d := by
  have bounds := Civil.ofDate_bounds d
  have years := Civil.year_bounds d
  have together := Civil.toDate?_ofDate d
  unfold text
  generalize Civil.ofDate d = c at bounds years together ⊢
  obtain ⟨year, month, day⟩ := c
  dsimp only at bounds years ⊢
  have readable : Civil.Readable year := ⟨by omega, by omega⟩
  have scanMonth (rest : List Char) :
      scanNumber 2 (fun n => 1 ≤ n && n ≤ 12) (padded 2 month ++ rest) = .ok (month, rest) :=
    scanNumber_padded (by decide) (by omega) (by simp; omega)
  have scanDay : scanNumber 2 (fun n => 1 ≤ n && n ≤ 31) (padded 2 day ++ []) = .ok (day, []) :=
    scanNumber_padded (by decide) (by omega) (by simp; omega)
  rw [List.append_nil] at scanDay
  rw [ofText, List.append_assoc, List.cons_append, Civil.scanYear_yearText readable]
  simp only [bind, Except.bind]
  rw [scanMark_skipBlanks rfl]
  dsimp only
  rw [scanMonth]
  dsimp only
  rw [scanMark_skipBlanks rfl]
  dsimp only
  rw [scanDay]
  dsimp only
  rw [together]
  rfl

end Date

/-- Every weekday is known by its written name. -/
theorem Weekday.ofName?_shortName (w : Weekday) : ofName? w.shortName = some w := by
  cases w <;> rfl

end UnpaidWork
