import TinyMips.Decimal.Binary
import TinyMips.Text.Numeral

namespace TinyMips.Decimal

/-!
# Shortest decimal text

The fewest digits that name a double and no other one. The reals that round to a
double form an interval around it, and the digits are those of the decimal
number in that interval that has the fewest of them and, among these, is the
nearest to the double.
-/

/-- A number of digits, and the power of ten that the last of them counts. -/
structure Digits where
  number : Nat
  power : Int
  deriving DecidableEq, Repr

/-- The reals that round to a positive double, scaled to whole numbers. -/
structure Interval where
  /-- The least real, as a multiple of the unit. -/
  low : Nat
  /-- The double itself. -/
  middle : Nat
  /-- The greatest real. -/
  high : Nat
  /-- How many units make one. -/
  unit : Nat
  /-- The ends round to the double too. -/
  closed : Bool
  deriving DecidableEq, Repr

namespace Interval

/-- The reals that round to a positive double. -/
def ofBinary (binary : Binary) : Interval :=
  let scale := Nat.pow 2 binary.exponent.toNat
  let narrowBelow := binary.mantissa = 0x10000000000000 && binary.exponent > -1074
  { low := (4 * binary.mantissa - if narrowBelow then 1 else 2) * scale
    middle := 4 * binary.mantissa * scale
    high := (4 * binary.mantissa + 2) * scale
    unit := 4 * binary.denominator
    closed := binary.mantissa % 2 = 0 }

/-- A quotient of natural numbers, given in units, lies in the interval. -/
def contains (interval : Interval) (numerator denominator : Nat) : Bool :=
  let low := interval.low * denominator
  let high := interval.high * denominator
  if interval.closed then
    low ≤ numerator && numerator ≤ high
  else
    low < numerator && numerator < high

/-- The number of digits before the point of the double, or less the zeros after it. -/
def magnitude (interval : Interval) : Int :=
  if interval.unit ≤ interval.middle then
    (Nat.toDigits 10 (interval.middle / interval.unit)).length
  else
    1 - (Nat.toDigits 10 (interval.unit / interval.middle)).length

/-- The decimal number of the interval nearest to the double, in steps of a power of ten. -/
def candidate? (interval : Interval) (power : Int) : Option Digits :=
  let up := Nat.pow 10 power.toNat
  let down := Nat.pow 10 (-power).toNat
  let below := interval.middle * down / (interval.unit * up)
  let scaled := fun number => number * up * interval.unit
  let lowFits := interval.contains (scaled below) down
  let highFits := interval.contains (scaled (below + 1)) down
  let toLow := interval.middle * down - scaled below
  let toHigh := scaled (below + 1) - interval.middle * down
  let lowIsNearer := toLow < toHigh || toLow = toHigh && below % 2 = 0
  if lowFits && (lowIsNearer || !highFits) then some ⟨below, power⟩
  else if highFits then some ⟨below + 1, power⟩
  else none

/-- The candidate with the fewest digits, tried from a power of ten downwards. -/
def search (interval : Interval) : Nat → Int → Digits
  | 0, power => ⟨0, power⟩
  | tries + 1, power =>
      match interval.candidate? power with
      | some digits => digits
      | none => interval.search tries (power - 1)

/-- The shortest digits of a positive double. -/
def shortest (interval : Interval) : Digits :=
  interval.search 20 interval.magnitude

end Interval

/-- The digits without the zeros at their end. -/
def Digits.text (digits : Digits) : Text :=
  let trimmed := ((Nat.toDigits 10 digits.number).reverse.dropWhile (· = '0')).reverse
  if trimmed.isEmpty then ['0'] else trimmed

/-- The power of ten of the first digit. -/
def Digits.leading (digits : Digits) : Int :=
  (Nat.toDigits 10 digits.number).length - 1 + digits.power

/-- How the digits of a double are laid out. -/
structure Layout where
  /-- The least power of ten of the first digit that is written without an exponent. -/
  leastPlain : Int
  /-- The greatest such power. -/
  greatestPlain : Int
  deriving DecidableEq, Repr

namespace Layout

/-- Numbers from a hundred thousandth to below ten to the sixteenth have no exponent. -/
def standard : Layout := ⟨-5, 15⟩

/-- Digits with a point after the first one, if there is more than one. -/
def pointed : Text → Text
  | first :: second :: rest => first :: '.' :: second :: rest
  | digits => digits

/-- Digits without an exponent, with a digit at least on either side of the point. -/
def plain (digits : Text) (leading : Int) : Text :=
  match leading with
  | .negSucc zeros => '0' :: '.' :: List.replicate zeros '0' ++ digits
  | .ofNat leading =>
      let padded := digits.rightpad (leading + 2) '0'
      padded.take (leading + 1) ++ '.' :: padded.drop (leading + 1)

/-- Digits with an exponent, which always has a sign and never a leading zero. -/
def scientific (digits : Text) (leading : Int) : Text :=
  let sign := if leading < 0 then '-' else '+'
  pointed digits ++ 'e' :: sign :: Numeral.decimal leading.natAbs

/-- A finite double as its shortest digits. -/
def write (layout : Layout) (x : Float) : Text :=
  let binary := Binary.ofFloat x
  let magnitude :=
    if binary.mantissa = 0 then
      ['0', '.', '0']
    else
      let digits := (Interval.ofBinary binary).shortest
      let leading := digits.leading
      if layout.leastPlain ≤ leading && leading ≤ layout.greatestPlain then
        plain digits.text leading
      else
        scientific digits.text leading
  if binary.negative then '-' :: magnitude else magnitude

end Layout

end TinyMips.Decimal
