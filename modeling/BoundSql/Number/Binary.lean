/-! # Binary floating-point numbers
The interchange formats of 32 and 64 bits, in exact integer arithmetic:
* **`Binary.Format`** — how wide significand and exponent are.
* **`Binary.Format.ofRatio`** — the number nearest to a quotient, a tie going to the even
  significand, and infinity beyond the largest finite number.
* **`Binary64`** — a number of the 64-bit format by its bits, with its exact value (`Finite`). -/

namespace BoundSql

namespace Binary

/-- A binary interchange format. -/
structure Format where
  /-- Bits of the significand, the implicit leading one included. -/
  precision : Nat
  /-- Bits of the exponent field. -/
  exponentBits : Nat
  deriving DecidableEq, Repr

namespace Format

/-- The format of 32 bits. -/
def single : Format := ⟨24, 8⟩

/-- The format of 64 bits. -/
def double : Format := ⟨53, 11⟩

/-- The exponent field of infinities and of what is no number. -/
def topExponent (f : Format) : Nat := Nat.pow 2 f.exponentBits - 1

/-- The binary exponent of the least positive number. -/
def leastExponent (f : Format) : Int := 3 - (Nat.pow 2 (f.exponentBits - 1) : Nat) - f.precision

/-- The bits of positive infinity. -/
def infinity (f : Format) : Nat := f.topExponent * Nat.pow 2 (f.precision - 1)

/-- The bits of the value that stands for no number. -/
def notANumber (f : Format) : Nat := f.infinity + Nat.pow 2 (f.precision - 2)

/-- The bit of the negative sign. -/
def signBit (f : Format) : Nat := Nat.pow 2 (f.precision - 1 + f.exponentBits)

/-- Bits with the sign set if `negative`. -/
def signed (f : Format) (negative : Bool) (bits : Nat) : Nat :=
  if negative then f.signBit + bits else bits

end Format

/-- `numerator / denominator` rounded to an integer, a tie going to the even neighbour. -/
def roundQuotient (numerator denominator : Nat) : Nat :=
  let quotient := numerator / denominator
  let twice := 2 * (numerator % denominator)
  if twice < denominator then quotient
  else if denominator < twice then quotient + 1
  else quotient + quotient % 2

/-- `numerator * 2 ^ (-exponent) / denominator`, rounded. -/
def roundScaled (numerator denominator : Nat) (exponent : Int) : Nat :=
  roundQuotient (numerator * Nat.pow 2 (-exponent).toNat) (denominator * Nat.pow 2 exponent.toNat)

/-- The binary exponent of the leading bit of a positive quotient. -/
def leadingExponent (numerator denominator : Nat) : Int :=
  let guess : Int := (Nat.log2 numerator : Int) - Nat.log2 denominator
  if denominator * Nat.pow 2 guess.toNat ≤ numerator * Nat.pow 2 (-guess).toNat then guess
  else guess - 1

/-- The bits of the number nearest to a quotient with a positive denominator. -/
def Format.ofRatio (f : Format) (numerator denominator : Nat) : Nat :=
  if numerator = 0 then 0
  else
    let exponent :=
      max (leadingExponent numerator denominator - ((f.precision : Int) - 1)) f.leastExponent
    let significand := roundScaled numerator denominator exponent
    let hidden := Nat.pow 2 (f.precision - 1)
    let bits :=
      if significand < hidden then significand
      else ((exponent - f.leastExponent).toNat + 1) * hidden + (significand - hidden)
    min bits f.infinity

/-- The bits of the number nearest to `coefficient * 10 ^ exponent`. Exponents far outside the
range of the format are answered without computing the power. -/
def Format.ofDecimal (f : Format) (coefficient : Nat) (exponent : Int) : Nat :=
  let leading : Int := exponent + (Nat.toDigits 10 coefficient).length
  if coefficient = 0 then 0
  else if leading < -400 then 0
  else if 400 < leading then f.infinity
  else f.ofRatio (coefficient * Nat.pow 10 exponent.toNat) (Nat.pow 10 (-exponent).toNat)

/-- The bits of the number nearest to an integer. -/
def Format.ofInt (f : Format) (n : Int) : Nat := f.signed (n < 0) (f.ofRatio n.natAbs 1)

end Binary

/-- A number of the 64-bit format, by its bits. -/
structure Binary64 where
  /-- Sign, exponent field and significand field, from the highest bit down. -/
  bits : UInt64
  deriving DecidableEq, Repr, Inhabited

namespace Binary64

/-- A finite number: `significand * 2 ^ exponent`, with its sign. -/
structure Finite where
  /-- Whether the sign is negative. -/
  negative : Bool
  /-- The significand as an integer. -/
  significand : Nat
  /-- The binary exponent of the significand's last bit. -/
  exponent : Int
  deriving DecidableEq, Repr

/-- Whether the sign is negative. -/
def negative (x : Binary64) : Bool := Nat.pow 2 63 ≤ x.bits.toNat

/-- The exponent field. -/
def exponentField (x : Binary64) : Nat := x.bits.toNat / Nat.pow 2 52 % Nat.pow 2 11

/-- The significand field. -/
def significandField (x : Binary64) : Nat := x.bits.toNat % Nat.pow 2 52

/-- The exact value, unless the number is infinite or no number. -/
def finite? (x : Binary64) : Option Finite :=
  if x.exponentField = Binary.Format.double.topExponent then none
  else if x.exponentField = 0 then
    some ⟨x.negative, x.significandField, Binary.Format.double.leastExponent⟩
  else
    some ⟨x.negative, Nat.pow 2 52 + x.significandField,
      Binary.Format.double.leastExponent + (x.exponentField - 1 : Nat)⟩

/-- The number with the given sign and magnitude bits. -/
def ofBits (negative : Bool) (magnitude : Nat) : Binary64 :=
  ⟨(Binary.Format.double.signed negative magnitude).toUInt64⟩

/-- The number with the other sign. -/
def negate (x : Binary64) : Binary64 := ofBits (!x.negative) (x.bits.toNat % Nat.pow 2 63)

/-- The number nearest to a quotient, without a sign. -/
def ofRatio (numerator denominator : Nat) : Binary64 :=
  ofBits false (Binary.Format.double.ofRatio numerator denominator)

/-- The magnitude of a finite number as a quotient. -/
def Finite.ratio (x : Finite) : Nat × Nat :=
  (x.significand * Nat.pow 2 x.exponent.toNat, Nat.pow 2 (-x.exponent).toNat)

end Binary64

end BoundSql
