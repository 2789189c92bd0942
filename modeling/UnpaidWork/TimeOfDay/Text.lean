import UnpaidWork.TimeOfDay
import UnpaidWork.Text.Scan

/-!
Times of day as text. A time is written with its seconds, and with three, six
or nine places below the second where that is needed to be exact; a leap second
is the second after the one it follows, which is second 60 at the end of a
minute. It is read more freely: seconds and their fraction may be left out, and
white space may stand before each part and at the end.
-/
namespace UnpaidWork.TimeOfDay

open Text

/-- The nanoseconds below a second, in the fewest groups of three places that are exact. -/
def fractionText (nanos : Nat) : List Char :=
  if nanos = 0 then []
  else if nanos % 1000000 = 0 then '.' :: padded 3 (nanos / 1000000)
  else if nanos % 1000 = 0 then '.' :: padded 6 (nanos / 1000)
  else '.' :: padded 9 nanos

/-- Hour and minute. -/
def shortText (t : TimeOfDay) : List Char :=
  padded 2 (t.second / 3600) ++ ':' :: padded 2 (t.second / 60 % 60)

/-- The written form of a time. -/
def text (t : TimeOfDay) : List Char :=
  t.shortText ++ ':' ::
    (padded 2 (t.second % 60 + t.nano / 1000000000) ++ fractionText (t.nano % 1000000000))

instance : ToString TimeOfDay := ⟨fun t => String.ofList t.text⟩

/-- The nanoseconds that decimal places stand for; places past the ninth are dropped. -/
def placesValue (digits : List Char) : Nat :=
  let kept := digits.take 9
  digitsValue kept * Nat.pow 10 (9 - kept.length)

/-- A point and decimal places, if the text goes on with a point. -/
def scanFraction : List Char → Except ScanFault (Nat × List Char)
  | '.' :: after => do
    let (digits, rest) ← scanDigits after.length after
    pure (placesValue digits, rest)
  | rest => .ok (0, rest)

/-- Seconds from 0 to 60 and their fraction, after a colon. -/
def scanSeconds (text : List Char) : Except ScanFault ((Nat × Nat) × List Char) := do
  let rest ← scanMark ':' (skipBlanks text)
  let (second, rest) ← scanNumber 2 (fun n => n ≤ 60) rest
  let (nanos, rest) ← scanFraction rest
  pure ((second, nanos), rest)

/-- The time with these parts; second 60 is the leap second at the end of the minute. -/
def ofParts? (hour minute second nano : Nat) : Option TimeOfDay :=
  if inRange : hour < 24 ∧ minute < 60 ∧ second < 60 ∧ nano < 1000000000 then
    some
      { second := hour * 3600 + minute * 60 + second
        nano := nano
        second_lt := by omega
        nano_lt := by omega }
  else if leapRange : hour < 24 ∧ minute < 60 ∧ second = 60 ∧ nano < 1000000000 then
    some
      { second := hour * 3600 + minute * 60 + 59
        nano := nano + 1000000000
        second_lt := by omega
        nano_lt := by omega }
  else none

/-- The time of day that a text names. Where the seconds cannot be read, the
text is taken to end before them. -/
def ofText (text : List Char) : Except ScanFault TimeOfDay := do
  let (hour, rest) ← scanNumber 2 (fun n => n < 24) text
  let rest ← scanMark ':' (skipBlanks rest)
  let (minute, rest) ← scanNumber 2 (fun n => n < 60) rest
  let ((second, nano), rest) := match scanSeconds rest with
    | .ok found => found
    | .error _ => ((0, 0), rest)
  scanEnd rest
  match ofParts? hour minute second nano with
  | some time => .ok time
  | none => .error .outOfRange

end UnpaidWork.TimeOfDay
