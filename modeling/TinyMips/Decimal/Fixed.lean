import TinyMips.Decimal.Binary
import TinyMips.Text.Numeral

namespace TinyMips.Decimal

/-!
# Fixed places

Decimal text with a fixed number of places after the point. The exact value is
rounded to the nearest text, and a value halfway between two goes to the even
one.
-/

/-- The natural number nearest to a quotient, the even one of two that are equally near. -/
def roundedQuotient (numerator denominator : Nat) : Nat :=
  let quotient := numerator / denominator
  let twice := 2 * (numerator % denominator)
  if twice < denominator || twice = denominator && quotient % 2 = 0 then
    quotient
  else
    quotient + 1

/-- A whole number of units of the last place, as decimal text. -/
def placed (places units : Nat) : Text :=
  let whole := Numeral.decimal (units / Nat.pow 10 places)
  if places = 0 then
    whole
  else
    whole ++ '.' :: (Numeral.decimal (units % Nat.pow 10 places)).leftpad places '0'

/-- A finite double with a fixed number of places. -/
def fixed (places : Nat) (x : Float) : Text :=
  let binary := Binary.ofFloat x
  let units := roundedQuotient (binary.numerator * Nat.pow 10 places) binary.denominator
  let text := placed places units
  if binary.negative then '-' :: text else text

end TinyMips.Decimal
