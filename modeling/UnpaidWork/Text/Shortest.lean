/-!
The shortest decimal that reads back as a given binary floating point number.
The number is taken apart exactly into `significand * 2 ^ exponent`; the reals
that round to it form an interval; and the decimal grids of one, two, up to
seventeen digits are searched, coarse to fine, for the point of that interval
nearest to the number.
-/
namespace UnpaidWork.Text

/-- A finite positive binary number, with whether its lower neighbour is only half as far away. -/
structure Binary where
  significand : Nat
  exponent : Int
  narrowBelow : Bool

/-- A decimal number `digits * 10 ^ exponent`. -/
structure Decimal where
  digits : Nat
  exponent : Int
  deriving DecidableEq, Repr

/-- The magnitude of a finite floating point number. -/
def Binary.ofFloat (x : Float) : Binary :=
  let bits : Nat := x.toBits.toNat
  let biased : Nat := bits / Nat.pow 2 52 % Nat.pow 2 11
  let fraction : Nat := bits % Nat.pow 2 52
  if biased = 0 then ⟨fraction, -1074, false⟩
  else ⟨Nat.pow 2 52 + fraction, (biased : Int) - 1075, fraction = 0 && 1 < biased⟩

/-- The least and greatest real that round to the number and the number itself,
as numerators over one denominator. -/
structure Rounding where
  low : Nat
  value : Nat
  high : Nat
  denominator : Nat
  endsIncluded : Bool

/-- The interval of the reals that round to a number. -/
def Binary.rounding (b : Binary) : Rounding :=
  let scale := Nat.pow 2 (b.exponent - 2).toNat
  { low := (4 * b.significand - (if b.narrowBelow then 1 else 2)) * scale
    value := 4 * b.significand * scale
    high := (4 * b.significand + 2) * scale
    denominator := Nat.pow 2 (2 - b.exponent).toNat
    endsIncluded := b.significand % 2 = 0 }

/-- The power of ten just below or at a positive fraction. -/
def magnitude (numerator denominator : Nat) : Int :=
  let guess : Int := (Nat.toDigits 10 numerator).length - (Nat.toDigits 10 denominator).length
  let scaled := numerator * Nat.pow 10 (-guess).toNat
  if denominator * Nat.pow 10 guess.toNat ≤ scaled then guess else guess - 1

/-- The point nearest to the number on the grid of multiples of `10 ^ grid`, if
it rounds to the number; of two as near, the one with an even last digit. -/
def Rounding.onGrid? (r : Rounding) (grid : Int) : Option Decimal :=
  let finer := Nat.pow 10 (-grid).toNat
  let unit := r.denominator * Nat.pow 10 grid.toNat
  let low := r.low * finer
  let value := r.value * finer
  let high := r.high * finer
  let rounds (digits : Nat) : Bool :=
    if r.endsIncluded then low ≤ digits * unit && digits * unit ≤ high
    else low < digits * unit && digits * unit < high
  let below := value / unit
  let toBelow := value - below * unit
  let toAbove := (below + 1) * unit - value
  let (first, second) :=
    if toBelow < toAbove || (toBelow = toAbove && below % 2 = 0) then (below, below + 1)
    else (below + 1, below)
  if rounds first then some ⟨first, grid⟩
  else if rounds second then some ⟨second, grid⟩
  else none

/-- The shortest decimal that rounds to a positive number. -/
def Binary.shortest (b : Binary) : Decimal :=
  let r := b.rounding
  let top := magnitude r.value r.denominator
  ((List.range 17).findSome? fun (more : Nat) => r.onGrid? (top - more)).getD ⟨0, 0⟩

end UnpaidWork.Text
