import UnpaidWork.TimeOfDay.Text
import UnpaidWork.Proofs.Decimals

/-!
What a time of day is read back as from its text. The places below the second are
as many as are needed to be exact, so they stand for the very same nanoseconds. A
leap second at the end of a minute is written as second 60, which is told apart
from the second before it; a leap second anywhere else is written like the
ordinary second after it, and that is what is read.
-/
namespace UnpaidWork.TimeOfDay
open Text

/-- If the time lies in a leap second, a minute ends with it. -/
def LeapEndsMinute (t : TimeOfDay) : Prop := t.inLeapSecond → t.second % 60 = 59

instance (t : TimeOfDay) : Decidable t.LeapEndsMinute :=
  inferInstanceAs (Decidable (t.inLeapSecond → t.second % 60 = 59))

/-- The time that the text of a time stands for: the same, except that a leap
second which does not end a minute is the second after the one that it follows. -/
def settled (t : TimeOfDay) : TimeOfDay :=
  if stray : 1000000000 ≤ t.nano ∧ t.second % 60 ≠ 59 then
    { second := t.second + 1
      nano := t.nano - 1000000000
      second_lt := by have := t.second_lt; omega
      nano_lt := by have := t.nano_lt; omega }
  else t

theorem settled_eq_self {t : TimeOfDay} (ends : t.LeapEndsMinute) : t.settled = t := by
  rw [LeapEndsMinute, inLeapSecond, decide_eq_true_eq] at ends
  exact dif_neg fun stray => stray.2 (ends stray.1)

variable {nanos : Nat} {rest : List Char}

theorem scanFraction_point {run : List Char} (digits : Digits run) :
    scanFraction ('.' :: run) = .ok (placesValue run, []) := by
  have scanned : scanDigits run.length (run ++ []) = .ok (run, []) :=
    digits.scan (Nat.le_refl _) (.inl rfl)
  rw [List.append_nil] at scanned
  simp only [scanFraction, scanned]
  rfl

/-- Decimal places that fill their group stand for a multiple of its last place. -/
theorem placesValue_padded {places n : Nat} (some : 0 < places) (few : places ≤ 9)
    (fits : n < 10 ^ places) : placesValue (padded places n) = n * 10 ^ (9 - places) := by
  have length := length_padded some fits
  rw [placesValue, List.take_of_length_le (by omega), length, digitsValue_padded]
  rfl

/-- Nanoseconds below a second are read back from their places. -/
theorem scanFraction_fractionText (below : nanos < 1000000000) :
    scanFraction (fractionText nanos) = .ok (nanos, []) := by
  have point (places n : Nat) (some : 0 < places) (few : places ≤ 9) (fits : n < 10 ^ places) :
      scanFraction ('.' :: padded places n) = .ok (n * 10 ^ (9 - places), []) := by
    rw [scanFraction_point (digits_padded _ _), placesValue_padded some few fits]
  unfold fractionText
  split
  · rename_i none
    rw [none]
    rfl
  · split
    · rw [point 3 (nanos / 1000000) (by decide) (by decide) (by omega)]
      congr 2
      omega
    · split
      · rw [point 6 (nanos / 1000) (by decide) (by decide) (by omega)]
        congr 2
        omega
      · rw [point 9 nanos (by decide) (by decide) (by omega)]
        congr 2
        omega

/-- The parts of a time name it: a leap second as second 60, any other second as it is. -/
theorem ofParts?_eq_some {t : TimeOfDay} {hour minute second nano : Nat} (inDay : hour < 24)
    (inHour : minute < 60) (below : nano < 1000000000)
    (named : second < 60 ∧ t.second = hour * 3600 + minute * 60 + second ∧ t.nano = nano ∨
      second = 60 ∧ t.second = hour * 3600 + minute * 60 + 59 ∧ t.nano = nano + 1000000000) :
    ofParts? hour minute second nano = some t := by
  unfold ofParts?
  rcases named with ⟨plain, seconds, nanos⟩ | ⟨leap, seconds, nanos⟩
  · rw [dif_pos ⟨inDay, inHour, plain, below⟩, Option.some.injEq]
    exact TimeOfDay.ext seconds.symm nanos.symm
  · rw [dif_neg (by omega), dif_pos ⟨inDay, inHour, leap, below⟩, Option.some.injEq]
    exact TimeOfDay.ext seconds.symm nanos.symm

/-- The parts of a time, with a leap second as the second after, make up the settled time. -/
theorem ofParts?_eq (t : TimeOfDay) :
    ofParts? (t.second / 3600) (t.second / 60 % 60) (t.second % 60 + t.nano / 1000000000)
      (t.nano % 1000000000) = some t.settled := by
  have second := t.second_lt
  have nano := t.nano_lt
  apply ofParts?_eq_some (by omega) (by omega) (by omega)
  by_cases stray : 1000000000 ≤ t.nano ∧ t.second % 60 ≠ 59
  · rw [settled, dif_pos stray]
    dsimp only
    omega
  · rw [settled, dif_neg stray]
    omega

/-- A settled time is written like the time itself. -/
theorem text_settled (t : TimeOfDay) : t.settled.text = t.text := by
  by_cases stray : 1000000000 ≤ t.nano ∧ t.second % 60 ≠ 59
  · have nano := t.nano_lt
    have hour : (t.second + 1) / 3600 = t.second / 3600 := by omega
    have minute : (t.second + 1) / 60 % 60 = t.second / 60 % 60 := by omega
    have second : (t.second + 1) % 60 + (t.nano - 1000000000) / 1000000000 =
        t.second % 60 + t.nano / 1000000000 := by omega
    have fraction : (t.nano - 1000000000) % 1000000000 = t.nano % 1000000000 := by omega
    rw [settled, dif_pos stray]
    simp only [text, shortText, hour, minute, second, fraction]
  · rw [settled, dif_neg stray]

/-- The seconds of a time, with their fraction, are read back to the end of the text. -/
theorem scanSeconds_text {second : Nat} (few : second ≤ 60) (below : nanos < 1000000000) :
    scanSeconds (':' :: (padded 2 second ++ fractionText nanos)) = .ok ((second, nanos), []) := by
  have scanned : scanNumber 2 (fun n => n ≤ 60) (padded 2 second ++ fractionText nanos) =
      .ok (second, fractionText nanos) :=
    scanNumber_padded (by decide) (by omega) (decide_eq_true few)
  rw [scanSeconds, scanMark_skipBlanks rfl]
  simp only [bind, Except.bind]
  rw [scanned]
  dsimp only
  rw [scanFraction_fractionText below]
  rfl

/-- Every time of day is read back from its text as it is settled. -/
theorem ofText_text (t : TimeOfDay) : ofText t.text = .ok t.settled := by
  have second := t.second_lt
  have nano := t.nano_lt
  have scanHour (rest : List Char) : scanNumber 2 (fun n => n < 24)
      (padded 2 (t.second / 3600) ++ rest) = .ok (t.second / 3600, rest) :=
    scanNumber_padded (by decide) (by omega) (decide_eq_true (by omega))
  have scanMinute (rest : List Char) : scanNumber 2 (fun n => n < 60)
      (padded 2 (t.second / 60 % 60) ++ rest) = .ok (t.second / 60 % 60, rest) :=
    scanNumber_padded (by decide) (by omega) (decide_eq_true (by omega))
  have scanRest : scanSeconds (':' :: (padded 2 (t.second % 60 + t.nano / 1000000000) ++
      fractionText (t.nano % 1000000000))) = .ok ((_, _), []) :=
    scanSeconds_text (by omega) (by omega)
  rw [text, shortText, List.append_assoc, List.cons_append, ofText]
  simp only [bind, Except.bind]
  rw [scanHour]
  dsimp only
  rw [scanMark_skipBlanks rfl]
  dsimp only
  rw [scanMinute]
  dsimp only
  rw [scanRest]
  dsimp only
  rw [ofParts?_eq]
  rfl

end UnpaidWork.TimeOfDay
