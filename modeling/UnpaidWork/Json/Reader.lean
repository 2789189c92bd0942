import UnpaidWork.Json.Doc
import UnpaidWork.Json.Strings

/-!
From a JSON text to its document. Reading stops at the first damage, which then
is the last thing in the document; otherwise it yields the rest of the text.
-/
namespace UnpaidWork.Json

/-- White space between the parts of a JSON text. -/
def isSpace (c : Char) : Bool := c == ' ' || c == '\n' || c == '\t' || c == '\r'

/-- A text without the white space it starts with. -/
def skipSpace (text : List Char) : List Char := text.dropWhile isSpace

/-- What was read, and the rest of the text unless reading stopped. -/
abbrev Read (α : Type) := α × Option (List Char)

/-- A word whose first letter has been read, or the damage in its place. -/
def readWord (letters : List Char) (word : Doc) (text : List Char) : Read Doc :=
  if letters.isPrefixOf text then (word, some (text.drop letters.length))
  else (.broken (.word (text.isPrefixOf letters)), none)

/-- A string whose quotation mark has been read. -/
def readString (text : List Char) : Read Doc :=
  match skipString text with
  | .ok rest => (.string ((keepString text).map String.ofList), some rest)
  | .error skipped =>
    match keepString text with
    | .ok _ => (.broken (.string skipped skipped), none)
    | .error kept => (.broken (.string kept skipped), none)

/-- A text parted behind the digits it starts with. -/
def partDigits (text : List Char) : List Char × List Char :=
  (text.takeWhile Char.isDigit, text.dropWhile Char.isDigit)

/-- At least one digit; otherwise whether the text ends there. -/
def readDigits (text : List Char) : Except Bool (List Char × List Char) :=
  let (digits, rest) := partDigits text
  if digits.isEmpty then .error rest.isEmpty else .ok (digits, rest)

/-- The whole part of a number: a single zero, or digits that start with another. -/
def readWhole (text : List Char) : Except Bool (List Char × List Char) := do
  let (digits, rest) ← readDigits text
  if digits.head? = some '0' ∧ digits ≠ ['0'] then .error false else .ok (digits, rest)

/-- The decimal places of a number, if it has a point. -/
def readFraction : List Char → Except Bool (Option (List Char) × List Char)
  | '.' :: after => (readDigits after).map fun (digits, rest) => (some digits, rest)
  | rest => .ok (none, rest)

/-- The digits of an exponent after its sign. -/
def readPower : List Char → Except Bool (Option Exponent × List Char)
  | '-' :: after => (readDigits after).map fun (digits, rest) => (some ⟨true, digits⟩, rest)
  | '+' :: after => (readDigits after).map fun (digits, rest) => (some ⟨false, digits⟩, rest)
  | after => (readDigits after).map fun (digits, rest) => (some ⟨false, digits⟩, rest)

/-- The exponent of a number, if it has one. -/
def readExponent : List Char → Except Bool (Option Exponent × List Char)
  | 'e' :: after => readPower after
  | 'E' :: after => readPower after
  | rest => .ok (none, rest)

/-- A number after its sign. -/
def readMagnitude (negative : Bool) (text : List Char) : Except Bool (Numeral × List Char) := do
  let (whole, rest) ← readWhole text
  let (fraction, rest) ← readFraction rest
  let (exponent, rest) ← readExponent rest
  return (⟨negative, whole, fraction, exponent⟩, rest)

/-- A number as a value of the document. -/
def readNumber (negative : Bool) (text : List Char) : Read Doc :=
  match readMagnitude negative text with
  | .ok (numeral, rest) => (.number numeral, some rest)
  | .error atEnd => (.broken (.numeral atEnd), none)

/-- What follows a value inside brackets: the end, or a comma and one more. -/
inductive Onward where
  | finish (closing : Closing) (rest : Option (List Char))
  | more (rest : List Char)

/-- What follows a value inside brackets that close with `bracket`. -/
def onward (bracket : Char) (text : List Char) : Onward :=
  match skipSpace text with
  | [] => .finish .ended none
  | c :: rest =>
    if c = bracket then .finish .closed (some rest)
    else if c = ',' then
      match skipSpace rest with
      | [] => .finish .endedAfterComma none
      | d :: after =>
        if d = bracket then .finish .trailingComma none else .more (d :: after)
    else .finish .noComma none

/-- Where the text after an opening bracket starts, unless the brackets are empty. -/
def inside (bracket : Char) (text : List Char) : Onward :=
  match skipSpace text with
  | [] => .finish .ended none
  | c :: rest => if c = bracket then .finish .closed (some rest) else .more (c :: rest)

mutual

/-- One value. The number bounds the steps of the walk. -/
def readValue : Nat → List Char → Read Doc
  | 0, _ => (.broken .absent, none)
  | steps + 1, text =>
    match skipSpace text with
    | [] => (.broken .absent, none)
    | c :: rest =>
      if c = 'n' then readWord ['u', 'l', 'l'] .null rest
      else if c = 't' then readWord ['r', 'u', 'e'] (.bool true) rest
      else if c = 'f' then readWord ['a', 'l', 's', 'e'] (.bool false) rest
      else if c = '"' then readString rest
      else if c = '-' then readNumber true rest
      else if c.isDigit then readNumber false (c :: rest)
      else if c = '[' then
        match inside ']' rest with
        | .finish closing rest => (.list [] closing, rest)
        | .more rest =>
          let ((items, closing), rest) := readItems steps rest
          (.list items closing, rest)
      else if c = '{' then
        match inside '}' rest with
        | .finish closing rest => (.object [] closing, rest)
        | .more rest =>
          let ((members, closing), rest) := readMembers steps rest
          (.object members closing, rest)
      else (.broken .stray, none)

/-- The values of a list up to its end. -/
def readItems : Nat → List Char → Read (List Doc × Closing)
  | 0, _ => (([], .ended), none)
  | steps + 1, text =>
    match readValue steps text with
    | (item, none) => (([item], .closed), none)
    | (item, some rest) =>
      match onward ']' rest with
      | .finish closing rest => (([item], closing), rest)
      | .more rest =>
        let ((items, closing), rest) := readItems steps rest
        ((item :: items, closing), rest)

/-- The members of an object up to its end. -/
def readMembers : Nat → List Char → Read (List Member × Closing)
  | 0, _ => (([], .ended), none)
  | steps + 1, text =>
    match readMember steps text with
    | (member, none) => (([member], .closed), none)
    | (member, some rest) =>
      match onward '}' rest with
      | .finish closing rest => (([member], closing), rest)
      | .more rest =>
        let ((members, closing), rest) := readMembers steps rest
        ((member :: members, closing), rest)

/-- A key, a colon and a value. -/
def readMember : Nat → List Char → Read Member
  | 0, _ => (.entry (.broken .absent) (.broken .absent), none)
  | steps + 1, text =>
    match readValue steps text with
    | (.string name, some rest) =>
      match skipSpace rest with
      | [] => (.entry (.string name) (.broken (.colon true)), none)
      | c :: rest =>
        if c = ':' then
          let (value, rest) := readValue steps rest
          (.entry (.string name) value, rest)
        else (.entry (.string name) (.broken (.colon false)), none)
    | (key, _) => (.entry key (.broken .stray), none)

end

/-- A document and whether its text goes on after it. -/
structure Source where
  doc : Doc
  trailing : Bool

/-- The document of a text. A value takes at most three steps for each of its characters. -/
def Source.ofText (text : List Char) : Source :=
  let (doc, rest) := readValue (3 * text.length + 3) text
  { doc := doc, trailing := rest.any fun rest => !(skipSpace rest).isEmpty }

end UnpaidWork.Json
