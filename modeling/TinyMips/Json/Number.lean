import TinyMips.Decimal.Shortest
import TinyMips.Json.Cursor

namespace TinyMips.Json

/-!
# JSON numbers

Integers of up to 64 bits keep their exact value; every other number, and minus
zero, becomes a double. A double is computed from as many leading digits as 64
bits hold, scaled by one power of ten, so its last bit may differ from the
nearest double's.
-/

/-- The value of a number. -/
inductive Number where
  /-- A natural number of up to 64 bits. -/
  | natural (value : Nat)
  /-- A negative integer of up to 64 bits. -/
  | negative (value : Int)
  /-- Any other number. -/
  | double (value : Float)
  deriving Repr

namespace Number

/-- Digits that 64 bits can hold as one number, and how many further ones there are. -/
structure Significand where
  value : Nat
  dropped : Nat
  deriving DecidableEq, Repr

/-- Go on with a number by as many digits as 64 bits can hold. -/
def Significand.extend (value : Nat) : Text → Significand
  | [] => ⟨value, 0⟩
  | c :: digits =>
      let longer := value * 10 + Numeral.digitValue c
      if longer < 0x10000000000000000 then extend longer digits else ⟨value, digits.length + 1⟩

/-- A power of ten as a double. -/
def powerOfTen (power : Nat) : Float :=
  Float.ofScientific 1 false power

/-- A double times a power of ten, unless it is too large; small ones may become zero. -/
def scaled? (value : Float) (power : Int) : Nat → Option Float
  | 0 => some 0
  | tries + 1 =>
      if 0 ≤ power then
        if value == 0 then
          some value
        else if power ≤ 308 then
          let result := value * powerOfTen power.toNat
          if result.isInf then none else some result
        else
          none
      else if -308 ≤ power then
        some (value / powerOfTen (-power).toNat)
      else
        scaled? (value / powerOfTen 308) (power + 308) tries

/-- A double of a sign, digits and a power of ten, unless it is too large. -/
def double? (negative : Bool) (significand : Nat) (power : Int) : Option Number :=
  (scaled? significand.toUInt64.toFloat power 4).map fun value =>
    .double (if negative then -value else value)

/-- The value of an integer that is written without fraction and exponent. -/
def ofInteger? (negative : Bool) (digits : Text) : Option Number :=
  let significand := Significand.extend 0 digits
  let value := significand.value
  if significand.dropped > 0 then
    double? negative value significand.dropped
  else if !negative then
    some (.natural value)
  else if 0 < value && value ≤ 0x8000000000000000 then
    some (.negative (-value))
  else
    double? true value 0

/-- The value of a number with a fraction, which may be empty, and a power of ten. -/
def ofDecimal? (negative : Bool) (whole fraction : Text) (power : Int) : Option Number :=
  let first := Significand.extend 0 whole
  let second := Significand.extend first.value fraction
  let places := fraction.length - second.dropped
  double? negative second.value (first.dropped - places + power)

/-- The number as an error message describes it. -/
def description : Number → String
  | natural value => s!"integer `{value}`"
  | negative value => s!"integer `{value}`"
  | double value => s!"floating point `{(Decimal.Layout.standard.write value).asString}`"

end Number

namespace Reader

variable {ε : Type}

/-- One or more digits; `missing` says what it means that the text ends instead. -/
def someDigits : Reader ε Text := do
  match ← peek? with
  | none => failHere .endInValue
  | some c => if c.isDigit then run Char.isDigit else failPast .badNumber

/-- The digits before the point; a zero has no digits after it. -/
def wholeDigits : Reader ε Text := do
  let digits ← someDigits
  match digits with
  | '0' :: second :: rest =>
      let cursor ← get
      let after := (second :: rest).length
      failAt ⟨cursor.place.line, cursor.place.column - after + 1⟩ (.inl .badNumber)
  | _ => return digits

/-- The digits after a point, if there is one. -/
def fractionDigits? : Reader ε (Option Text) := do
  match ← peek? with
  | some '.' =>
      advance
      return some (← someDigits)
  | _ => return none

/-- The length of the shortest prefix of digits whose number does not fit 31 bits. -/
def overflowLength? (digits : Text) : Option Nat :=
  (List.range (digits.length + 1)).find? fun length =>
    0x80000000 ≤ Numeral.value 10 (digits.take length)

/-- A power of ten, if one is written; `isZero` says that the digits before it are all zero. -/
def power? (isZero : Bool) : Reader ε (Option Int) := do
  match ← peek? with
  | some c =>
      if c = 'e' || c = 'E' then
        advance
        let sign ← peek?
        if sign = some '+' || sign = some '-' then
          advance
        let start := (← get).place
        let digits ← someDigits
        match overflowLength? digits with
        | none =>
            let power : Int := Numeral.value 10 digits
            return some (if sign = some '-' then -power else power)
        | some length =>
            if sign = some '-' || isZero then
              return some (-0x80000000)
            else
              failAt ⟨start.line, start.column + length⟩ (.inl .numberTooLarge)
      else
        return none
  | none => return none

/-- A number without its sign. -/
def number (negative : Bool) : Reader ε Number := do
  let whole ← wholeDigits
  let fraction? ← fractionDigits?
  let isZero := (whole ++ fraction?.getD []).all (· = '0')
  let power? ← power? isZero
  let value? :=
    match fraction?, power? with
    | none, none => Number.ofInteger? negative whole
    | _, _ => Number.ofDecimal? negative whole (fraction?.getD []) (power?.getD 0)
  match value? with
  | some value => return value
  | none => failHere .numberTooLarge

end Reader

end TinyMips.Json
