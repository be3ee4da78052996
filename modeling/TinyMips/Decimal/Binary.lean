namespace TinyMips

/-!
# Binary fractions

A finite double is a sign and a natural number times a power of two. Here it is
taken apart into these, and everything that is printed of it is computed from
them without further rounding.
-/

/-- A sign, and a natural number times a power of two. -/
structure Binary where
  negative : Bool
  mantissa : Nat
  exponent : Int
  deriving DecidableEq, Repr

namespace Binary

/-- The exact value of a finite double; other doubles count as zero. -/
def ofFloat (x : Float) : Binary :=
  let bits := x.toBits.toNat
  let negative := bits / 0x8000000000000000 = 1
  let exponent : Nat := bits / 0x10000000000000 % 0x800
  let fraction := bits % 0x10000000000000
  if exponent = 0x7FF then ⟨negative, 0, 0⟩
  else if exponent = 0 then ⟨negative, fraction, -1074⟩
  else ⟨negative, fraction + 0x10000000000000, (exponent : Int) - 1075⟩

/-- The numerator of the magnitude. -/
def numerator (binary : Binary) : Nat :=
  binary.mantissa * Nat.pow 2 binary.exponent.toNat

/-- The denominator of the magnitude, a power of two. -/
def denominator (binary : Binary) : Nat :=
  Nat.pow 2 (-binary.exponent).toNat

end Binary

end TinyMips
