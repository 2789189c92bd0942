import UnpaidWork.Json.Fault
import UnpaidWork.Text.Shortest

/-!
Numbers of a JSON text. A numeral is kept as its digits. It stands for an
integer when it has neither fraction nor exponent and fits into 64 bits, and
for a floating point number otherwise; minus zero is a floating point number.
-/
namespace UnpaidWork.Json

open Text

/-- An exponent: its sign and its digits. -/
structure Exponent where
  negative : Bool
  digits : List Char
  deriving DecidableEq

/-- A number as it is written. -/
structure Numeral where
  negative : Bool
  whole : List Char
  fraction : Option (List Char)
  exponent : Option Exponent
  deriving DecidableEq

/-- The number that a numeral stands for. -/
inductive NumeralValue where
  | integer (value : Int)
  | float (value : Float)

/-- The greatest significand that is collected from the digits of a numeral. -/
def significandLimit : Nat := 18446744073709551615

/-- Collects digits while the significand stays within its limit, and tells
how many digits were left over. -/
def collectDigits (significand : Nat) : List Char → Nat × Nat
  | [] => (significand, 0)
  | c :: rest =>
    let next := significand * 10 + (c.toNat - '0'.toNat)
    if next ≤ significandLimit then collectDigits next rest else (significand, rest.length + 1)

/-- The power of ten as a floating point number. -/
def powerOfTen (n : Nat) : Float := Float.ofScientific 1 false n

/-- `significand * 10 ^ exponent` by multiplications and divisions of floating
point numbers, or nothing when it is too large. Each division takes 308 from
the exponent, so a number that is not zero after three of them is impossible. -/
def scaleFloat : Nat → Float → Int → Option Float
  | 0, _, _ => some 0
  | rounds + 1, x, exponent =>
    if exponent.natAbs ≤ 308 then
      if 0 ≤ exponent then
        let scaled := x * powerOfTen exponent.natAbs
        if scaled.isInf then none else some scaled
      else some (x / powerOfTen exponent.natAbs)
    else if x == 0 then some x
    else if 0 ≤ exponent then none
    else scaleFloat rounds (x / powerOfTen 308) (exponent + 308)

/-- The greatest power of ten that the digits of an exponent can name. -/
def exponentLimit : Int := 2147483647

/-- The magnitude of a numeral as a floating point number. -/
def Numeral.magnitude? (n : Numeral) : Option Float :=
  let (whole, wholeLeft) := collectDigits 0 n.whole
  let places := n.fraction.getD []
  let (significand, placesLeft) := collectDigits whole places
  let shift : Int := wholeLeft - (places.length - placesLeft : Nat)
  let x := significand.toUInt64.toFloat
  match n.exponent with
  | none => scaleFloat 16 x shift
  | some power =>
    let size : Int := digitsValue power.digits
    if exponentLimit < size then
      if significand ≠ 0 ∧ ¬power.negative then none else some 0
    else scaleFloat 16 x (if power.negative then shift - size else shift + size)

/-- The number that a numeral stands for. -/
def Numeral.value (n : Numeral) : Except Fault NumeralValue :=
  let size := digitsValue n.whole
  let isWhole := n.fraction.isNone && n.exponent.isNone
  if isWhole && !n.negative && size ≤ 18446744073709551615 then .ok (.integer size)
  else if isWhole && n.negative && 1 ≤ size && size ≤ 9223372036854775808 then
    .ok (.integer (-size))
  else
    match n.magnitude? with
    | none => .error .numberOutOfRange
    | some x => .ok (.float (if n.negative then -x else x))

/-- The layout of a decimal: plain from a hundred thousandth up to sixteen
digits before the point, otherwise with a signed exponent. -/
def layout (d : Decimal) : List Char :=
  let digits := Nat.toDigits 10 d.digits
  let kept := (digits.reverse.dropWhile (· == '0')).reverse
  let power := d.exponent + digits.length - 1
  if -5 ≤ power ∧ power < 16 then
    if power < 0 then '0' :: '.' :: (List.replicate (-power - 1).toNat '0' ++ kept)
    else
      let whole := kept.take (power.toNat + 1)
      let places := kept.drop (power.toNat + 1)
      whole ++ List.replicate (power.toNat + 1 - whole.length) '0' ++
        '.' :: (if places.isEmpty then ['0'] else places)
  else
    let places := kept.drop 1
    kept.take 1 ++ (if places.isEmpty then [] else '.' :: places) ++
      'e' :: (if power < 0 then '-' else '+') :: Nat.toDigits 10 power.natAbs

/-- The shortest text of a floating point number. -/
def floatText (x : Float) : String :=
  let sign := if x.toBits.toNat / Nat.pow 2 63 = 1 then ['-'] else []
  let size := if x == 0 then ['0', '.', '0'] else layout (Binary.ofFloat x).shortest
  String.ofList (sign ++ size)

end UnpaidWork.Json
