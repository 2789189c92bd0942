/-!
Reading numbers and signs from the front of a text, and writing them with a
least number of digits. Numbers are ASCII decimal digits. White space in front
of them is passed over; it is taken in the sense of the Unicode property
White_Space, twenty-five characters of which only six are ASCII. What cannot be
read is told apart by four causes, which dates and times share.
-/
namespace UnpaidWork.Text

/-- Why a date or a time could not be read. -/
inductive ScanFault where
  /-- A number is outside what its place allows, or the parts name no date. -/
  | outOfRange
  /-- A character that does not belong there. -/
  | invalid
  /-- The text ends too early. -/
  | tooShort
  /-- The text goes on after its end. -/
  | trailing
  deriving DecidableEq, Repr

/-- The text that reports the fault. -/
def ScanFault.message : ScanFault → String
  | .outOfRange => "input is out of range"
  | .invalid => "input contains invalid characters"
  | .tooShort => "premature end of input"
  | .trailing => "trailing input"

/-- A number with zeros in front to make at least `width` digits. -/
def padded (width n : Nat) : List Char :=
  let digits := Nat.toDigits 10 n
  List.replicate (width - digits.length) '0' ++ digits

/-- The value of a run of decimal digits. -/
def digitsValue (digits : List Char) : Nat := Nat.ofDigitChars 10 digits 0

/-- The characters with the property White_Space. -/
def isBlank (c : Char) : Bool :=
  let n := c.toNat
  (9 ≤ n && n ≤ 13) || n == 0x20 || n == 0x85 || n == 0xA0 || n == 0x1680 ||
    (0x2000 ≤ n && n ≤ 0x200A) || n == 0x2028 || n == 0x2029 || n == 0x202F ||
    n == 0x205F || n == 0x3000

/-- A text without the white space it starts with. -/
def skipBlanks (text : List Char) : List Char := text.dropWhile isBlank

/-- The digits at the front of a text, at least one and at most `most`, and what follows them. -/
def scanDigits (most : Nat) (text : List Char) : Except ScanFault (List Char × List Char) :=
  match text with
  | [] => .error .tooShort
  | c :: _ =>
    if c.isDigit then
      let digits := (text.take most).takeWhile Char.isDigit
      .ok (digits, text.drop digits.length)
    else .error .invalid

/-- A number of at most `most` digits, after white space, that `allowed` accepts. -/
def scanNumber (most : Nat) (allowed : Nat → Bool) (text : List Char) :
    Except ScanFault (Nat × List Char) := do
  let (digits, rest) ← scanDigits most (skipBlanks text)
  if allowed (digitsValue digits) then .ok (digitsValue digits, rest) else .error .outOfRange

/-- One given character. -/
def scanMark (mark : Char) : List Char → Except ScanFault (List Char)
  | [] => .error .tooShort
  | c :: rest => if c = mark then .ok rest else .error .invalid

/-- The end of the text, after white space. -/
def scanEnd (text : List Char) : Except ScanFault Unit :=
  if (skipBlanks text).isEmpty then .ok () else .error .trailing

end UnpaidWork.Text
