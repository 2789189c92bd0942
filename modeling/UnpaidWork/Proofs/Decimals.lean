import Mathlib
import UnpaidWork.Text.Scan

/-!
Decimal digits, written and read back. A number that is padded to a width is a
run of digits with the number as its value, and a reader takes exactly this run
when it may take no more digits or finds none after it.
-/
namespace UnpaidWork.Text

/-- A run of decimal digits, at least one. -/
structure Digits (run : List Char) : Prop where
  some : run ≠ []
  digit : ∀ c ∈ run, c.isDigit = true

/-- The text does not go on with a digit. -/
def NoDigitFirst (text : List Char) : Prop := ∀ c ∈ text.head?, c.isDigit = false

theorem noDigitFirst_cons {c : Char} {text : List Char} :
    NoDigitFirst (c :: text) ↔ c.isDigit = false := by
  simp [NoDigitFirst]

theorem isBlank_of_isDigit {c : Char} (digit : c.isDigit = true) : isBlank c = false := by
  have bounds : 48 ≤ c.toNat ∧ c.toNat ≤ 57 := by
    simpa [Char.isDigit, UInt32.le_iff_toNat_le] using digit
  simp only [isBlank, Bool.or_eq_false_iff, Bool.and_eq_false_iff, decide_eq_false_iff_not,
    beq_eq_false_iff_ne]
  omega

theorem skipBlanks_cons {c : Char} {text : List Char} (visible : isBlank c = false) :
    skipBlanks (c :: text) = c :: text := by
  rw [skipBlanks, List.dropWhile_cons_of_neg (by simp [visible])]

section Run
variable {run rest : List Char} {most : Nat}

theorem Digits.exists_cons (digits : Digits run) :
    ∃ c more, run = c :: more ∧ c.isDigit = true := by
  obtain ⟨c, more, rfl⟩ := List.exists_cons_of_ne_nil digits.some
  exact ⟨c, more, rfl, digits.digit c List.mem_cons_self⟩

theorem Digits.skipBlanks_append (digits : Digits run) :
    skipBlanks (run ++ rest) = run ++ rest := by
  obtain ⟨c, more, rfl, first⟩ := digits.exists_cons
  exact skipBlanks_cons (isBlank_of_isDigit first)

theorem Digits.takeWhile_append (digits : Digits run) (ends : NoDigitFirst rest) :
    (run ++ rest).takeWhile Char.isDigit = run := by
  rw [List.takeWhile_append_of_pos digits.digit]
  cases rest with
  | nil => exact List.append_nil run
  | cons c more =>
    rw [List.takeWhile_cons_of_neg (by simp [noDigitFirst_cons.mp ends]), List.append_nil]

theorem Digits.dropWhile_append (digits : Digits run) (ends : NoDigitFirst rest) :
    (run ++ rest).dropWhile Char.isDigit = rest := by
  rw [List.dropWhile_append_of_pos digits.digit]
  cases rest with
  | nil => rfl
  | cons c more => rw [List.dropWhile_cons_of_neg (by simp [noDigitFirst_cons.mp ends])]

/-- A reader takes the whole run if it may, and nothing after it. -/
theorem Digits.scan (digits : Digits run) (fits : run.length ≤ most)
    (ends : most = run.length ∨ NoDigitFirst rest) :
    scanDigits most (run ++ rest) = .ok (run, rest) := by
  have taken : ((run ++ rest).take most).takeWhile Char.isDigit = run := by
    rw [List.take_append, List.take_of_length_le fits]
    apply digits.takeWhile_append
    rcases ends with rfl | ends
    · simp [NoDigitFirst]
    · intro c first
      refine ends c ?_
      cases rest with
      | nil => simp at first
      | cons d more =>
        cases room : most - run.length with
        | zero => simp [room] at first
        | succ n => simpa [room] using first
  obtain ⟨c, more, rfl, first⟩ := digits.exists_cons
  rw [List.cons_append] at taken ⊢
  rw [scanDigits, if_pos first, taken]
  simp

theorem Digits.scanNumber (digits : Digits run) (fits : run.length ≤ most)
    (ends : most = run.length ∨ NoDigitFirst rest) {allowed : Nat → Bool}
    (accepted : allowed (digitsValue run) = true) :
    scanNumber most allowed (run ++ rest) = .ok (digitsValue run, rest) := by
  rw [Text.scanNumber, digits.skipBlanks_append, digits.scan fits ends]
  exact if_pos accepted

end Run

/-! Numbers as they are written -/

theorem digits_toDigits (n : Nat) : Digits (Nat.toDigits 10 n) :=
  ⟨Nat.toDigits_ne_nil, fun _ member => Nat.isDigit_of_mem_toDigits (by decide) (by decide) member⟩

theorem digitsValue_toDigits (n : Nat) : digitsValue (Nat.toDigits 10 n) = n :=
  Nat.ofDigitChars_ten_toDigits

theorem digits_padded (width n : Nat) : Digits (padded width n) := by
  refine ⟨fun none => Nat.toDigits_ne_nil (List.append_eq_nil_iff.mp none).2, fun c member => ?_⟩
  rcases List.mem_append.mp member with zero | digit
  · rw [List.eq_of_mem_replicate zero]
    rfl
  · exact (digits_toDigits n).digit c digit

/-- Zeros in front do not change the value. -/
theorem digitsValue_padded (width n : Nat) : digitsValue (padded width n) = n := by
  rw [padded, digitsValue, Nat.ofDigitChars_append, Nat.ofDigitChars_replicate_zero, Nat.mul_zero]
  exact digitsValue_toDigits n

theorem length_padded {width n : Nat} (wide : 0 < width) (fits : n < 10 ^ width) :
    (padded width n).length = width := by
  have short := (Nat.length_toDigits_le_iff (by decide : 1 < 10) wide).mpr fits
  rw [padded, List.length_append, List.length_replicate]
  omega

/-- A padded number that fills its place is read back. -/
theorem scanNumber_padded {width n : Nat} {rest : List Char} (wide : 0 < width)
    (fits : n < 10 ^ width) {allowed : Nat → Bool} (accepted : allowed n = true) :
    scanNumber width allowed (padded width n ++ rest) = .ok (n, rest) := by
  have length := length_padded wide fits
  have read : Text.scanNumber width allowed (padded width n ++ rest) =
      .ok (digitsValue (padded width n), rest) :=
    (digits_padded width n).scanNumber (by omega) (.inl length.symm)
      (by rwa [digitsValue_padded])
  rwa [digitsValue_padded] at read

theorem scanMark_cons (mark : Char) (rest : List Char) : scanMark mark (mark :: rest) = .ok rest :=
  if_pos rfl

/-- A mark is found at once where no white space stands before it. -/
theorem scanMark_skipBlanks {mark : Char} (visible : isBlank mark = false) (rest : List Char) :
    scanMark mark (skipBlanks (mark :: rest)) = .ok rest := by
  rw [skipBlanks_cons visible, scanMark_cons]

end UnpaidWork.Text
